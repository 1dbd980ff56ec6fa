import Mathlib.Data.List.Basic
import QuantityCalculus.JsonValue.Reading
import QuantityCalculus.JsonValue.Written
import QuantityCalculus.Proofs.Tables

namespace QuantityCalculus
namespace JsonValue

/-!
# JSON values read back

A value that is written in any layout is read back, whatever follows it.  The parts of a
container are read back one by one: behind each of them stand blanks and a comma or the
closing bracket, so that no value reads on into the next.

The bound on the parts inside is twice the number of characters written, as every part
takes up a character.
-/

variable {R : Type} [Scalar R]

/-! ## Blanks -/

/-- A text of blanks. -/
def IsSpace (text : List Char) : Prop := forall c, c ∈ text -> isSpacing c = true

theorem skipSpacing_cons {c : Char} (written : isSpacing c = false) (rest : List Char) :
    skipSpacing (c :: rest) = c :: rest :=
  List.dropWhile_cons_of_neg (by rw [written]; exact Bool.false_ne_true)

theorem skipSpacing_append {space : List Char} (blank : IsSpace space) {c : Char}
    (written : isSpacing c = false) (rest : List Char) :
    skipSpacing (space ++ c :: rest) = c :: rest := by
  induction space with
  | nil => exact skipSpacing_cons written rest
  | cons first others inductionHypothesis =>
      have further := inductionHypothesis fun d member => blank d (List.mem_cons_of_mem _ member)
      rw [List.cons_append, skipSpacing,
        List.dropWhile_cons_of_pos (blank first List.mem_cons_self)]
      exact further

theorem isSpace_lineStart (layout : Layout) : IsSpace layout.lineStart := by
  cases layout with
  | oneLine => exact nofun
  | lines depth =>
      intro c member
      rcases List.mem_cons.mp member with rfl | blank
      · rfl
      · rw [List.eq_of_mem_replicate blank]
        rfl

/-- Two parts are set apart by a comma and blanks. -/
theorem exists_separator (layout : Layout) :
    ∃ space, layout.separator = ',' :: space ∧ IsSpace space := by
  cases layout with
  | oneLine => exact ⟨[' '], rfl, fun c member => List.mem_singleton.mp member ▸ rfl⟩
  | lines depth => exact ⟨_, rfl, isSpace_lineStart (.lines depth)⟩

/-! ## Values -/

theorem chars_string (layout : Layout) (text : String) :
    chars layout (.string text : JsonValue R) = quotedText text.toList :=
  rfl

theorem chars_list (layout : Layout) (items : List (JsonValue R)) :
    chars layout (.list items) = enclosedParts layout '[' (itemTexts layout.inner items) ']' :=
  rfl

theorem chars_object (layout : Layout) (fields : List (String × JsonValue R)) :
    chars layout (.object fields) =
      enclosedParts layout '\x7b' (fieldTexts layout.inner fields) '\x7d' :=
  rfl

/-- No number reads on into this text. -/
def EndsNumber (text : List Char) : Prop :=
  forall c, c ∈ text.head? -> isNumberDigit c = false ∧ c ≠ '.' ∧ Number.isExponentMark c = false

/-- However a value is written, it starts with a sign of its own and is read back. -/
structure ReadsBack (value : JsonValue R) : Prop where
  starts : forall layout, ∃ c text, chars layout value = c :: text ∧ isSpacing c = false ∧ c ≠ ']'
  reads : forall layout rest bound, EndsNumber rest -> 2 * (chars layout value).length <= bound ->
    readValue bound (chars layout value ++ rest) = .ok (value, rest)

theorem endsNumber_lineStart (layout : Layout) {c : Char} (other : isNumberDigit c = false)
    (noPoint : c ≠ '.') (noMark : Number.isExponentMark c = false) (rest : List Char) :
    EndsNumber (layout.lineStart ++ c :: rest) := by
  intro first member
  cases layout with
  | oneLine =>
      cases member
      exact ⟨other, noPoint, noMark⟩
  | lines depth =>
      cases member
      exact ⟨rfl, by decide, rfl⟩

theorem endsNumber_separator (layout : Layout) (rest : List Char) :
    EndsNumber (layout.separator ++ rest) := by
  rcases exists_separator layout with ⟨space, same, _⟩
  rw [same]
  intro first member
  cases member
  exact ⟨rfl, by decide, rfl⟩

/-! ### Texts -/

/-- The four digits of an escape are those of the character. -/
theorem hexUnit?_hexDigits : forall code : Fin 32,
    hexUnit? (Nat.digitChar (code / 16 / 16 / 16 % 16)) (Nat.digitChar (code / 16 / 16 % 16))
      (Nat.digitChar (code / 16 % 16)) (Nat.digitChar (code % 16)) = some code.val := by
  decide

/-- A character stands for itself, or is escaped by a sign or by its code. -/
theorem escaped_cases (c : Char) :
    (escaped c = [c] ∧ c ≠ '"' ∧ c ≠ '\\' ∧ ¬ c.toNat < 32) ∨
      (∃ sign, escaped c = ['\\', sign] ∧ sign ≠ 'u' ∧ escape? sign = some c) ∨
      ∃ first second third fourth, escaped c = ['\\', 'u', first, second, third, fourth] ∧
        hexUnit? first second third fourth = some c.toNat := by
  have ofCode : forall {code : Nat}, c.toNat = code -> Char.ofNat code = c :=
    fun same => same ▸ Char.ofNat_toNat c
  unfold escaped
  split
  · rename_i special
    rw [Bool.or_eq_true, decide_eq_true_eq, decide_eq_true_eq] at special
    rcases special with rfl | rfl
    · exact Or.inr (Or.inl ⟨'"', rfl, by decide, rfl⟩)
    · exact Or.inr (Or.inl ⟨'\\', rfl, by decide, rfl⟩)
  split
  · rename_i same
    exact Or.inr (Or.inl ⟨'n', rfl, by decide, same ▸ rfl⟩)
  split
  · rename_i same
    exact Or.inr (Or.inl ⟨'r', rfl, by decide, same ▸ rfl⟩)
  split
  · rename_i same
    exact Or.inr (Or.inl ⟨'t', rfl, by decide, same ▸ rfl⟩)
  split
  · rename_i same
    exact Or.inr (Or.inl ⟨'b', rfl, by decide, congrArg some (ofCode same)⟩)
  split
  · rename_i same
    exact Or.inr (Or.inl ⟨'f', rfl, by decide, congrArg some (ofCode same)⟩)
  split
  · rename_i control
    exact Or.inr (Or.inr ⟨_, _, _, _, rfl, hexUnit?_hexDigits ⟨c.toNat, control⟩⟩)
  · rename_i plain _ _ _ _ _ printed
    rw [Bool.or_eq_true, decide_eq_true_eq, decide_eq_true_eq, not_or] at plain
    exact Or.inl ⟨rfl, plain.1, plain.2, printed⟩

/-- A character is read from what is written for it. -/
theorem readUnits?_escaped (c : Char) (rest : List Char) :
    readUnits? (escaped c ++ rest) =
      (readUnits? rest).map fun found => (c.toNat :: found.1, found.2) := by
  rcases escaped_cases c with ⟨same, noQuote, noMark, printed⟩ | ⟨sign, same, noCode, escapes⟩ |
    ⟨first, second, third, fourth, same, code⟩
  · rw [same, List.singleton_append, readUnits?, if_neg printed]
    · cases readUnits? rest <;> rfl
    · exact noQuote
    · exact fun _ _ _ _ _ start => absurd start noMark
    · exact fun _ _ start => absurd start noMark
  · rw [same, List.cons_append, List.singleton_append, readUnits?]
    · rw [escapes]
      cases readUnits? rest <;> rfl
    · exact fun _ _ _ _ _ start => absurd start noCode
  · rw [same]
    simp only [List.cons_append, List.nil_append]
    rw [readUnits?, code]
    cases readUnits? rest <;> rfl

theorem readUnits?_quoted (text rest : List Char) :
    readUnits? (text.flatMap escaped ++ '"' :: rest) = some (text.map Char.toNat, rest) := by
  induction text with
  | nil => rw [List.flatMap_nil, List.nil_append, readUnits?, List.map_nil]
  | cons c text inductionHypothesis =>
      rw [List.flatMap_cons, List.append_assoc, readUnits?_escaped, inductionHypothesis]
      rfl

/-- A whole character is no half of one. -/
theorem unitCharacter_toNat (c : Char) :
    unitCharacter c.toNat = c ∧ isFirstHalf c.toNat = false := by
  have valid : c.toNat < 0xD800 ∨ 0xDFFF < c.toNat := c.valid.imp id And.left
  have first : isFirstHalf c.toNat = false := by
    refine Bool.eq_false_iff.mpr fun inside => ?_
    rw [isFirstHalf, Bool.and_eq_true, Nat.ble_eq, Nat.ble_eq] at inside
    omega
  have second : isSecondHalf c.toNat = false := by
    refine Bool.eq_false_iff.mpr fun inside => ?_
    rw [isSecondHalf, Bool.and_eq_true, Nat.ble_eq, Nat.ble_eq] at inside
    omega
  refine ⟨?_, first⟩
  rw [unitCharacter, first, second]
  exact Char.ofNat_toNat c

theorem joinUnits_toNat (text : List Char) : joinUnits (text.map Char.toNat) = text := by
  induction text with
  | nil => rfl
  | cons c text inductionHypothesis =>
      rcases unitCharacter_toNat c with ⟨same, whole⟩
      cases text with
      | nil => rw [List.map_cons, List.map_nil, joinUnits, same]
      | cons d text =>
          rw [List.map_cons, List.map_cons, joinUnits, whole, same]
          rw [List.map_cons] at inductionHypothesis
          simp only [Bool.false_and, Bool.false_eq_true, if_false, inductionHypothesis]

/-- A quoted text is read up to its closing quote. -/
theorem readText?_quoted (text : String) (rest : List Char) :
    readText? (text.toList.flatMap escaped ++ '"' :: rest) = some (text, rest) := by
  rw [readText?, readUnits?_quoted]
  change some (String.ofList (joinUnits _), rest) = _
  rw [joinUnits_toNat, String.ofList_toList]

theorem readsBack_string (text : String) : (string text : JsonValue R).ReadsBack where
  starts := fun _ => ⟨'"', _, rfl, rfl, by decide⟩
  reads := by
    intro layout rest bound _ enough
    cases bound with
    | zero => exact absurd enough (by simp [chars_string, quotedText])
    | succ bound =>
        rw [chars_string, quotedText, List.append_assoc, List.singleton_append, List.cons_append,
          readValue, readText?_quoted]
        rfl

/-! ### Words and the number one -/

theorem readsBack_truth (value : Bool) : (truth value : JsonValue R).ReadsBack := by
  cases value with
  | true =>
      refine ⟨fun _ => ⟨'t', _, rfl, rfl, by decide⟩, fun layout rest bound _ enough => ?_⟩
      cases bound with
      | zero => exact absurd (show 2 * 4 <= 0 from enough) (by decide)
      | succ bound => rfl
  | false =>
      refine ⟨fun _ => ⟨'f', _, rfl, rfl, by decide⟩, fun layout rest bound _ enough => ?_⟩
      cases bound with
      | zero => exact absurd (show 2 * 5 <= 0 from enough) (by decide)
      | succ bound => rfl

theorem readNumber_one (rest : List Char) (ends : EndsNumber rest) :
    readNumber ('1' :: rest) = .ok ((whole 1 : JsonValue R), rest) := by
  have digits : rest.takeWhile isNumberDigit = [] := by
    cases rest with
    | nil => rfl
    | cons c rest =>
        have other := (ends c rfl).1
        exact List.takeWhile_cons_of_neg (by rw [other]; exact Bool.false_ne_true)
  have fraction : fractionPart rest = [] := by
    cases rest with
    | nil => rfl
    | cons c rest =>
        rw [fractionPart]
        exact fun others same => (ends c rfl).2.1 (List.cons.inj same).1
  have exponent : exponentPart rest = [] := by
    cases rest with
    | nil => rfl
    | cons c rest =>
        rw [exponentPart, (ends c rfl).2.2, Bool.false_and]
        rfl
  have one : wholeDigits ('1' :: rest) = ['1'] := by
    rw [wholeDigits, if_neg (by decide), if_pos (by decide), digits]
  have noSign : (('1' :: rest).take 1).filter (· == '-') = [] := rfl
  unfold readNumber
  simp only [noSign, List.length_nil, List.drop_zero, one, List.length_singleton, Nat.zero_add,
    List.drop_succ_cons, fraction, exponent]
  rfl

theorem readsBack_one : (whole 1 : JsonValue R).ReadsBack where
  starts := fun _ => ⟨'1', [], rfl, rfl, by decide⟩
  reads := by
    intro layout rest bound ends enough
    cases bound with
    | zero => exact absurd enough (by decide : ¬ 2 * ['1'].length <= 0)
    | succ bound => exact readNumber_one rest ends

/-! ### Containers -/

/-- The parts of a container after its opening bracket. -/
def partsText (layout : Layout) (first : List Char) (others : List (List Char)) (right : Char) :
    List Char :=
  first ++ others.flatMap (fun part => layout.inner.separator ++ part) ++ layout.lineStart ++
    [right]

theorem enclosedParts_cons (layout : Layout) (left right : Char) (first : List Char)
    (others : List (List Char)) : enclosedParts layout left (first :: others) right =
      left :: (layout.inner.lineStart ++ partsText layout first others right) := by
  simp [enclosedParts, partsText]

/-- Behind the last part stands the closing bracket. -/
theorem partsText_nil (layout : Layout) (first : List Char) (right : Char) (rest : List Char) :
    partsText layout first [] right ++ rest = first ++ (layout.lineStart ++ right :: rest) := by
  simp [partsText]

/-- Behind any other part stand a comma and the part after it. -/
theorem partsText_cons (layout : Layout) (first next : List Char) (others : List (List Char))
    (right : Char) (rest : List Char) :
    partsText layout first (next :: others) right ++ rest =
      first ++ (layout.inner.separator ++ (partsText layout next others right ++ rest)) := by
  simp [partsText]

theorem length_partsText_cons (layout : Layout) (first next : List Char)
    (others : List (List Char)) (right : Char) :
    first.length + 1 + (partsText layout next others right).length <=
      (partsText layout first (next :: others) right).length := by
  rcases exists_separator layout.inner with ⟨space, same, _⟩
  simp [partsText, same]
  omega

/-- The parts after some blanks start with a sign. -/
theorem skipSpacing_partsText {space : List Char} (blank : IsSpace space) (layout : Layout)
    {c : Char} (written : isSpacing c = false) (text : List Char) (others : List (List Char))
    (right : Char) (rest : List Char) :
    skipSpacing (space ++ (partsText layout (c :: text) others right ++ rest)) =
      partsText layout (c :: text) others right ++ rest := by
  simp only [partsText, List.cons_append]
  exact skipSpacing_append blank written _

/-- The comma behind a part and the blanks after it are passed over. -/
theorem exists_skipSpacing_separator (layout : Layout) (rest : List Char) :
    ∃ space, IsSpace space ∧
      skipSpacing (layout.separator ++ rest) = ',' :: (space ++ rest) := by
  rcases exists_separator layout with ⟨space, same, blank⟩
  refine ⟨space, blank, ?_⟩
  rw [same, List.cons_append]
  exact skipSpacing_cons rfl _

theorem readItems_partsText (layout : Layout) {first : JsonValue R} {others : List (JsonValue R)}
    (one : first.ReadsBack) (each : forall item, item ∈ others -> item.ReadsBack)
    (rest : List Char) (bound : Nat)
    (enough : 2 * (partsText layout (chars layout.inner first)
      (itemTexts layout.inner others) ']').length <= bound) :
    readItems bound (partsText layout (chars layout.inner first)
      (itemTexts layout.inner others) ']' ++ rest) = .ok (first :: others, rest) := by
  induction others generalizing first bound with
  | nil =>
      have longer : 2 * (chars layout.inner first).length + 2 <= bound := by
        simp [partsText, itemTexts] at enough
        omega
      cases bound with
      | zero => omega
      | succ bound =>
          have ends : EndsNumber (layout.lineStart ++ ']' :: rest) :=
            endsNumber_lineStart layout rfl (by decide) rfl rest
          rw [itemTexts, partsText_nil, readItems, one.reads layout.inner _ bound ends (by omega),
            Except.bind]
          dsimp only
          rw [skipSpacing_append (isSpace_lineStart layout) rfl]
          rfl
  | cons next others inductionHypothesis =>
      have longer := length_partsText_cons layout (chars layout.inner first)
        (chars layout.inner next) (itemTexts layout.inner others) ']'
      rw [itemTexts] at enough ⊢
      cases bound with
      | zero => omega
      | succ bound =>
          have two := each next List.mem_cons_self
          have further := inductionHypothesis two
            (fun item member => each item (List.mem_cons_of_mem _ member)) bound (by omega)
          rw [partsText_cons, readItems,
            one.reads layout.inner _ bound (endsNumber_separator _ _) (by omega), Except.bind]
          rcases exists_skipSpacing_separator layout.inner (partsText layout
            (chars layout.inner next) (itemTexts layout.inner others) ']' ++ rest) with
            ⟨space, blank, skipped⟩
          rcases two.starts layout.inner with ⟨c, text, same, written, _⟩
          rw [same] at skipped further ⊢
          dsimp only
          rw [skipped]
          change Except.map _ (readItems bound (skipSpacing (space ++ _))) = _
          rw [skipSpacing_partsText blank layout written, further]
          rfl

theorem readsBack_list {items : List (JsonValue R)}
    (each : forall item, item ∈ items -> item.ReadsBack) : (list items).ReadsBack where
  starts := by
    intro layout
    rw [chars_list]
    cases items with
    | nil => exact ⟨'[', _, rfl, rfl, by decide⟩
    | cons first others => exact ⟨'[', _, rfl, rfl, by decide⟩
  reads := by
    intro layout rest bound _ enough
    rw [chars_list] at enough ⊢
    cases items with
    | nil =>
        cases bound with
        | zero => exact absurd enough (by simp [itemTexts, enclosedParts])
        | succ bound => rfl
    | cons first others =>
        rw [itemTexts, enclosedParts_cons] at enough ⊢
        cases bound with
        | zero => exact absurd enough (by simp)
        | succ bound =>
            have one := each first List.mem_cons_self
            have shorter : 2 * (partsText layout (chars layout.inner first)
                (itemTexts layout.inner others) ']').length <= bound := by
              simp at enough
              omega
            have further := readItems_partsText layout one
              (fun item member => each item (List.mem_cons_of_mem _ member)) rest bound shorter
            rcases one.starts layout.inner with ⟨c, text, same, written, notClosed⟩
            rw [same] at further ⊢
            rw [List.cons_append, List.append_assoc, readValue,
              skipSpacing_partsText (isSpace_lineStart _) layout written]
            split
            · rename_i closed
              exact absurd (List.cons.inj closed).1 notClosed
            · rw [further]
              rfl

/-- The text of a field. -/
def fieldText (layout : Layout) (name : String) (value : JsonValue R) : List Char :=
  quotedText name.toList ++ ':' :: ' ' :: chars layout value

/-- A field is read up to what stands behind its value. -/
theorem readFields_fieldText (layout : Layout) (name : String) {value : JsonValue R}
    (reads : value.ReadsBack) {behind : List Char} (ends : EndsNumber behind) {bound : Nat}
    (enough : 2 * (chars layout value).length <= bound) :
    readFields (bound + 1) (fieldText layout name value ++ behind) =
      match skipSpacing behind with
      | '\x7d' :: rest => .ok ([(name, value)], rest)
      | ',' :: rest =>
          (readFields bound (skipSpacing rest)).map fun (fields, rest) =>
            ((name, value) :: fields, rest)
      | _ => .error .malformed := by
  have opened : fieldText layout name value ++ behind =
      '"' :: (name.toList.flatMap escaped ++ '"' :: (':' :: ' ' ::
        (chars layout value ++ behind))) := by
    simp [fieldText, quotedText]
  have colon : skipSpacing (':' :: ' ' :: (chars layout value ++ behind)) =
      ':' :: ' ' :: (chars layout value ++ behind) := skipSpacing_cons rfl _
  have blank : skipSpacing (' ' :: (chars layout value ++ behind)) =
      chars layout value ++ behind := by
    rcases reads.starts layout with ⟨c, text, same, written, _⟩
    rw [same]
    exact (List.dropWhile_cons_of_pos rfl).trans (skipSpacing_cons written _)
  rw [opened, readFields, readText?_quoted, orMalformed, Except.bind]
  dsimp only
  rw [colon]
  change (readValue bound (skipSpacing (' ' :: _))).bind _ = _
  rw [blank, reads.reads layout behind bound ends enough]
  rfl

theorem readFields_partsText (layout : Layout) {name : String} {first : JsonValue R}
    {others : List (String × JsonValue R)} (one : first.ReadsBack)
    (each : forall field, field ∈ others -> field.2.ReadsBack) (rest : List Char) (bound : Nat)
    (enough : 2 * (partsText layout (fieldText layout.inner name first)
      (fieldTexts layout.inner others) '\x7d').length <= bound) :
    readFields bound (partsText layout (fieldText layout.inner name first)
      (fieldTexts layout.inner others) '\x7d' ++ rest) = .ok ((name, first) :: others, rest) := by
  have shorter : forall (name : String) (value : JsonValue R),
      (chars layout.inner value).length + 2 <= (fieldText layout.inner name value).length := by
    intro name value
    simp [fieldText]
  induction others generalizing name first bound with
  | nil =>
      have longer : (fieldText layout.inner name first).length <= (partsText layout
          (fieldText layout.inner name first) [] '\x7d').length := by
        simp [partsText]
      have within := shorter name first
      rw [fieldTexts] at enough ⊢
      cases bound with
      | zero => omega
      | succ bound =>
          have ends : EndsNumber (layout.lineStart ++ '\x7d' :: rest) :=
            endsNumber_lineStart layout rfl (by decide) rfl rest
          rw [partsText_nil, readFields_fieldText layout.inner name one ends (by omega),
            skipSpacing_append (isSpace_lineStart layout) rfl]
          rfl
  | cons next others inductionHypothesis =>
      rcases next with ⟨nextName, next⟩
      have longer := length_partsText_cons layout (fieldText layout.inner name first)
        (fieldText layout.inner nextName next) (fieldTexts layout.inner others) '\x7d'
      have within := shorter name first
      have texts : fieldTexts layout.inner ((nextName, next) :: others) =
          fieldText layout.inner nextName next :: fieldTexts layout.inner others := rfl
      rw [texts] at enough ⊢
      cases bound with
      | zero => omega
      | succ bound =>
          have further := @inductionHypothesis nextName next (each _ List.mem_cons_self)
            (fun field member => each field (List.mem_cons_of_mem _ member)) bound (by omega)
          rcases exists_skipSpacing_separator layout.inner (partsText layout
            (fieldText layout.inner nextName next) (fieldTexts layout.inner others) '\x7d' ++
              rest) with ⟨space, blank, skipped⟩
          have start : fieldText layout.inner nextName next = '"' ::
              (nextName.toList.flatMap escaped ++ ['"'] ++
                ':' :: ' ' :: chars layout.inner next) := rfl
          rw [partsText_cons, readFields_fieldText layout.inner name one
            (endsNumber_separator _ _) (by omega), skipped]
          dsimp only
          rw [start] at further ⊢
          change Except.map _ (readFields bound (skipSpacing (space ++ _))) = _
          rw [skipSpacing_partsText blank layout rfl, further]
          rfl

theorem readsBack_object {fields : List (String × JsonValue R)}
    (distinct : (Table.keys fields).Nodup)
    (each : forall field, field ∈ fields -> field.2.ReadsBack) : (object fields).ReadsBack where
  starts := by
    intro layout
    rw [chars_object]
    cases fields with
    | nil => exact ⟨'\x7b', _, rfl, rfl, by decide⟩
    | cons first others => exact ⟨'\x7b', _, rfl, rfl, by decide⟩
  reads := by
    intro layout rest bound _ enough
    rw [chars_object] at enough ⊢
    cases fields with
    | nil =>
        cases bound with
        | zero => exact absurd enough (by simp [fieldTexts, enclosedParts])
        | succ bound => rfl
    | cons first others =>
        rcases first with ⟨name, first⟩
        have texts : fieldTexts layout.inner ((name, first) :: others) =
            fieldText layout.inner name first :: fieldTexts layout.inner others := rfl
        rw [texts, enclosedParts_cons] at enough ⊢
        cases bound with
        | zero => exact absurd enough (by simp)
        | succ bound =>
            have one : first.ReadsBack := each (name, first) List.mem_cons_self
            have shorter : 2 * (partsText layout (fieldText layout.inner name first)
                (fieldTexts layout.inner others) '\x7d').length <= bound := by
              simp at enough
              omega
            have further := readFields_partsText layout one
              (fun field member => each field (List.mem_cons_of_mem _ member)) rest bound shorter
            have start : fieldText layout.inner name first = '"' :: (name.toList.flatMap escaped
                ++ ['"'] ++ ':' :: ' ' :: chars layout.inner first) := rfl
            rw [start] at further ⊢
            rw [List.cons_append, List.append_assoc, readValue,
              skipSpacing_partsText (isSpace_lineStart _) layout rfl]
            split
            · rename_i closed
              exact absurd (List.cons.inj closed).1 (by decide)
            · rw [further]
              exact congrArg
                (fun fields => (.ok (object fields, rest) : Except ReadingFault (JsonValue R × _)))
                (Table.update_nil_of_nodup distinct)

/-- A value that can be read back is the value of its text. -/
theorem ReadsBack.read {value : JsonValue R} (reads : value.ReadsBack) (layout : Layout) :
    JsonValue.read (chars layout value) = .ok value := by
  have whole := reads.reads layout [] (2 * (chars layout value).length + 1) nofun (Nat.le_succ _)
  rw [List.append_nil] at whole
  rcases reads.starts layout with ⟨c, text, same, written, _⟩
  have skipped : skipSpacing (chars layout value) = chars layout value := by
    rw [same]
    exact skipSpacing_cons written text
  rw [JsonValue.read, skipped, whole]
  rfl

end JsonValue
end QuantityCalculus
