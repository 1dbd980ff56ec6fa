import QuantityCalculus.Expr.Basic

namespace QuantityCalculus

/-!
The children of an expression, and the walks over them.

Every part of an expression stands in a slot of its parent.  Listing the
children, walking over all parts, finding the way to a variable and replacing
one child all go by these slots, so that a way found by one of them can be
followed by the others.
-/

/-- The places for children. -/
inductive Slot where
  | x | y | index | lhs | rhs
  /-- A binding of a call, by its position. -/
  | argument (position : Nat)
deriving DecidableEq, Repr

/-- The name of a slot. -/
def Slot.name : Slot -> String
  | .x => "x"
  | .y => "y"
  | .index => "index"
  | .lhs => "lhs"
  | .rhs => "rhs"
  | .argument position => "bindings[" ++ String.ofList (Nat.toDigits 10 position) ++ "]"

/-- The slots whose names are words of their own. -/
def Slot.named : List Slot := [.x, .y, .index, .lhs, .rhs]

/-- The slot of a name. -/
def Slot.ofName? (name : String) : Option Slot :=
  match named.find? fun slot => slot.name == name with
  | some slot => some slot
  | none =>
      let digits := (name.toList.dropWhile (· != '[')).filter Char.isDigit
      let slot := argument (digits.foldl (fun value c => value * 10 + (c.toNat - 48)) 0)
      if slot.name = name then some slot else none

variable {R : Type}

/-- The bindings of a call in their slots, counted from a first position. -/
def Arguments.childrenFrom (position : Nat) : Arguments R -> List (Slot × Expr R)
  | .nil => []
  | .cons name value rest =>
      (.argument position, .binding name value) :: rest.childrenFrom (position + 1)

/-- The children of an expression in the order in which they are written. -/
def Expr.children : Expr R -> List (Slot × Expr R)
  | .num _ | .var _ | .mem | .target _ => []
  | .memAt i => [(.index, i)]
  | .func _ x | .factorial x | .sqrt x | .abs x | .binding _ x | .paren x | .marked _ x
  | .declaration _ x => [(.x, x)]
  | .root x i => [(.x, x), (.index, i)]
  | .fraction x y | .binary _ x y => [(.x, x), (.y, y)]
  | .call _ arguments => arguments.childrenFrom 0
  | .equation l r => [(.lhs, l), (.rhs, r)]

mutual

/-- All parts of an expression, each before its children. -/
def Expr.walk : Expr R -> List (Expr R)
  | .num value => [.num value]
  | .var name => [.var name]
  | .mem => [.mem]
  | .target name => [.target name]
  | .memAt i => .memAt i :: i.walk
  | .func kind x => .func kind x :: x.walk
  | .factorial x => .factorial x :: x.walk
  | .sqrt x => .sqrt x :: x.walk
  | .root x i => .root x i :: (x.walk ++ i.walk)
  | .abs x => .abs x :: x.walk
  | .fraction x y => .fraction x y :: (x.walk ++ y.walk)
  | .binary op x y => .binary op x y :: (x.walk ++ y.walk)
  | .binding name x => .binding name x :: x.walk
  | .call name arguments => .call name arguments :: arguments.walk
  | .paren x => .paren x :: x.walk
  | .marked mark x => .marked mark x :: x.walk
  | .equation l r => .equation l r :: (l.walk ++ r.walk)
  | .declaration name x => .declaration name x :: x.walk

/-- All parts of the bindings of a call. -/
def Arguments.walk : Arguments R -> List (Expr R)
  | .nil => []
  | .cons name value rest => .binding name value :: (value.walk ++ rest.walk)

end

/-- The expression is the variable of that name. -/
def Expr.isVar (name : String) : Expr R -> Bool
  | .var other => other == name
  | _ => false

/-- How often a variable is written in an expression; function bodies do not count. -/
def Expr.occurrences (name : String) (expr : Expr R) : Nat :=
  expr.walk.countP (Expr.isVar name)

/-- One step on the way to a part: a parent, and the slot in which the way goes on. -/
abbrev PathStep (R : Type) := Expr R × Slot

/-- The way on through a slot. -/
def stepInto (parent : Expr R) (slot : Slot) (rest : Option (List (PathStep R))) :
    Option (List (PathStep R)) :=
  rest.map fun steps => (parent, slot) :: steps

mutual

/-- The way from the root to the first occurrence of a variable, outermost parent first. -/
def Expr.pathTo? (name : String) : Expr R -> Option (List (PathStep R))
  | .var other => if other = name then some [] else none
  | .num _ | .mem | .target _ => none
  | .memAt i => stepInto (.memAt i) .index (i.pathTo? name)
  | .func kind x => stepInto (.func kind x) .x (x.pathTo? name)
  | .factorial x => stepInto (.factorial x) .x (x.pathTo? name)
  | .sqrt x => stepInto (.sqrt x) .x (x.pathTo? name)
  | .root x i =>
      (stepInto (.root x i) .x (x.pathTo? name)).or (stepInto (.root x i) .index (i.pathTo? name))
  | .abs x => stepInto (.abs x) .x (x.pathTo? name)
  | .fraction x y =>
      (stepInto (.fraction x y) .x (x.pathTo? name)).or
        (stepInto (.fraction x y) .y (y.pathTo? name))
  | .binary op x y =>
      (stepInto (.binary op x y) .x (x.pathTo? name)).or
        (stepInto (.binary op x y) .y (y.pathTo? name))
  | .binding bound x => stepInto (.binding bound x) .x (x.pathTo? name)
  | .call function arguments => arguments.pathTo? name (.call function arguments) 0
  | .paren x => stepInto (.paren x) .x (x.pathTo? name)
  | .marked mark x => stepInto (.marked mark x) .x (x.pathTo? name)
  | .equation l r =>
      (stepInto (.equation l r) .lhs (l.pathTo? name)).or
        (stepInto (.equation l r) .rhs (r.pathTo? name))
  | .declaration declared x => stepInto (.declaration declared x) .x (x.pathTo? name)

/-- The way through the bindings of a call, counted from a first position. -/
def Arguments.pathTo? (name : String) (parent : Expr R) (position : Nat) :
    Arguments R -> Option (List (PathStep R))
  | .nil => none
  | .cons bound value rest =>
      (stepInto parent (.argument position)
        (stepInto (.binding bound value) .x (value.pathTo? name))).or
        (rest.pathTo? name parent (position + 1))

end

/-- The bindings of a call with the one at a position replaced. -/
def Arguments.replaceAt? (name : String) (value : Expr R) :
    Nat -> Arguments R -> Option (Arguments R)
  | _, .nil => none
  | 0, .cons _ _ rest => some (.cons name value rest)
  | position + 1, .cons bound old rest =>
      (rest.replaceAt? name value position).map fun rest => .cons bound old rest

/--
An expression with the child in one slot replaced.  A missing index is a slot
that can be filled; any other slot has to be there, and the place of a binding
takes only bindings.
-/
def Expr.replaceChild? (parent : Expr R) (slot : Slot) (new : Expr R) : Option (Expr R) :=
  match parent with
  | .mem => if slot = .index then some (.memAt new) else none
  | .memAt _ => if slot = .index then some (.memAt new) else none
  | .func kind _ => if slot = .x then some (.func kind new) else none
  | .factorial _ => if slot = .x then some (.factorial new) else none
  | .sqrt x =>
      if slot = .x then some (.sqrt new) else if slot = .index then some (.root x new) else none
  | .root x i =>
      if slot = .x then some (.root new i) else if slot = .index then some (.root x new) else none
  | .abs _ => if slot = .x then some (.abs new) else none
  | .fraction x y =>
      if slot = .x then some (.fraction new y)
      else if slot = .y then some (.fraction x new) else none
  | .binary op x y =>
      if slot = .x then some (.binary op new y)
      else if slot = .y then some (.binary op x new) else none
  | .binding name _ => if slot = .x then some (.binding name new) else none
  | .call function arguments =>
      match slot, new with
      | .argument position, .binding name value =>
          (arguments.replaceAt? name value position).map fun arguments => .call function arguments
      | _, _ => none
  | .paren _ => if slot = .x then some (.paren new) else none
  | .marked mark _ => if slot = .x then some (.marked mark new) else none
  | .equation l r =>
      if slot = .lhs then some (.equation new r)
      else if slot = .rhs then some (.equation l new) else none
  | .declaration name _ => if slot = .x then some (.declaration name new) else none
  | .num _ | .var _ | .target _ => none

end QuantityCalculus
