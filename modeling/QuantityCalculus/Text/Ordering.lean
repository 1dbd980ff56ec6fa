namespace QuantityCalculus
namespace Text

/-!
Sorted lists of names without repetition.

Sets of names are shown in the order of their code points.  Insertion into a
sorted list keeps both properties; the membership law is what the users of
such a list need.
-/

/-- Texts compared by code points. -/
def precedes : List Char -> List Char -> Bool
  | [], [] => false
  | [], _ :: _ => true
  | _ :: _, [] => false
  | a :: left, b :: right =>
      Nat.blt a.toNat b.toNat || (a == b && precedes left right)

/-- Names compared by code points. -/
def nameLess (left right : String) : Bool :=
  precedes left.toList right.toList

/-- Insertion into a sorted list, unless the name is there. -/
def insertName (name : String) : List String -> List String
  | [] => [name]
  | head :: rest =>
      if name = head then head :: rest
      else if nameLess name head then name :: head :: rest
      else head :: insertName name rest

/-- The names of a list, sorted and without repetition. -/
def sortedNames (names : List String) : List String :=
  names.foldr insertName []

/-- Insertion of a value by its name into a list sorted by name, behind equal names. -/
def insertByName {α : Type} (nameOf : α -> String) (value : α) : List α -> List α
  | [] => [value]
  | head :: rest =>
      if nameLess (nameOf value) (nameOf head) then value :: head :: rest
      else head :: insertByName nameOf value rest

/-- The values of a list in the order of their names. -/
def sortedBy {α : Type} (nameOf : α -> String) (values : List α) : List α :=
  values.reverse.foldr (insertByName nameOf) []

theorem mem_insertName (name other : String) (names : List String) :
    other ∈ insertName name names <-> other = name ∨ other ∈ names := by
  induction names with
  | nil => simp [insertName]
  | cons head rest ih =>
      by_cases same : name = head
      · subst same
        simp [insertName]
      · by_cases less : nameLess name head = true
        · simp [insertName, same, less]
        · simp only [insertName, if_neg same, if_neg less, List.mem_cons, ih]
          exact or_left_comm

theorem mem_sortedNames (name : String) (names : List String) :
    name ∈ sortedNames names <-> name ∈ names := by
  induction names with
  | nil => simp [sortedNames]
  | cons head rest ih =>
      have step : sortedNames (head :: rest) = insertName head (sortedNames rest) := rfl
      rw [step, mem_insertName, ih, List.mem_cons]

end Text
end QuantityCalculus
