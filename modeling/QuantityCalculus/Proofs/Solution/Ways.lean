import QuantityCalculus.Expr.Children

namespace QuantityCalculus

/-!
# The way to a variable

`Expr.pathTo?` finds a way exactly when the variable is written somewhere in
the expression.  A way is empty only at the variable itself; otherwise its
first step leaves the root of the expression through one of its slots, and the
rest of it is the way inside the child of that slot.  An induction over ways
needs no more than this.

The walk over an expression and the search in it are recursions of their own.
Two equations say what they make of the list of children, so that where a way
leads is settled without a look at the forms of expressions.
-/

variable {R : Type}

/-! ## The walk and the search by children -/

theorem Arguments.walk_eq (position : Nat) (arguments : Arguments R) :
    arguments.walk = (arguments.childrenFrom position).flatMap fun entry => entry.2.walk := by
  match arguments with
  | .nil => rfl
  | .cons bound value rest =>
      rw [Arguments.walk, Arguments.childrenFrom, List.flatMap_cons, Expr.walk, List.cons_append,
        Arguments.walk_eq (position + 1) rest]

/-- The walk over an expression is the expression and the walks over its children. -/
theorem Expr.walk_eq (expr : Expr R) :
    expr.walk = expr :: expr.children.flatMap fun entry => entry.2.walk := by
  cases expr with
  | call function arguments => rw [Expr.walk, Arguments.walk_eq 0 arguments]; rfl
  | _ => simp [Expr.walk, Expr.children]

theorem Arguments.pathTo?_eq (name : String) (parent : Expr R) (position : Nat)
    (arguments : Arguments R) :
    arguments.pathTo? name parent position =
      (arguments.childrenFrom position).findSome? fun entry =>
        stepInto parent entry.1 (entry.2.pathTo? name) := by
  match arguments with
  | .nil => rfl
  | .cons bound value rest =>
      rw [Arguments.pathTo?, Arguments.childrenFrom, List.findSome?_cons,
        Arguments.pathTo?_eq name parent (position + 1) rest, Expr.pathTo?]
      cases stepInto parent (.argument position) _ <;> rfl

/-- The search takes the first child in which it succeeds. -/
theorem Expr.pathTo?_eq (name : String) (expr : Expr R) :
    expr.pathTo? name =
      if expr.isVar name then some []
      else expr.children.findSome? fun entry => stepInto expr entry.1 (entry.2.pathTo? name) := by
  cases expr with
  | var other => simp [Expr.pathTo?, Expr.isVar, Expr.children]
  | call function arguments => exact Arguments.pathTo?_eq name _ 0 arguments
  | root x y | fraction x y | binary _ x y | equation x y =>
      simp only [Expr.pathTo?, Expr.isVar, Expr.children, List.findSome?_cons, List.findSome?_nil]
      cases stepInto _ _ (x.pathTo? name) <;> cases stepInto _ _ (y.pathTo? name) <;> rfl
  | memAt x | func _ x | factorial x | sqrt x | abs x | binding _ x | paren x | marked _ x
  | declaration _ x =>
      simp only [Expr.pathTo?, Expr.isVar, Expr.children, List.findSome?_cons, List.findSome?_nil]
      cases stepInto _ _ (x.pathTo? name) <;> rfl
  | num _ | mem | target _ => rfl

/-! ## A way exists where the variable is written -/

theorem stepInto_isSome (parent : Expr R) (slot : Slot) (rest : Option (List (PathStep R))) :
    (stepInto parent slot rest).isSome = rest.isSome :=
  Option.isSome_map

theorem Expr.occurrences_cons (name : String) (expr : Expr R) (parts : List (Expr R))
    (walked : expr.walk = expr :: parts) (notVariable : expr.isVar name = false) :
    expr.occurrences name = parts.countP (Expr.isVar name) := by
  rw [Expr.occurrences, walked, List.countP_cons_of_neg (by simp [notVariable])]

mutual

theorem Expr.pathTo?_isSome_iff (name : String) (expr : Expr R) :
    (expr.pathTo? name).isSome = true <-> 0 < expr.occurrences name := by
  match expr with
  | .num _ | .mem | .target _ => simp [Expr.pathTo?, Expr.occurrences, Expr.walk, Expr.isVar]
  | .var other =>
      by_cases same : other = name <;>
        simp [Expr.pathTo?, Expr.occurrences, Expr.walk, Expr.isVar, same]
  | .memAt x | .func _ x | .factorial x | .sqrt x | .abs x | .binding _ x | .paren x
  | .marked _ x | .declaration _ x =>
      rw [Expr.pathTo?, stepInto_isSome, Expr.occurrences_cons name _ x.walk rfl rfl]
      exact Expr.pathTo?_isSome_iff name x
  | .root x y | .fraction x y | .binary _ x y | .equation x y =>
      rw [Expr.occurrences_cons name _ (x.walk ++ y.walk) rfl rfl, List.countP_append,
        Expr.pathTo?, Option.isSome_or, stepInto_isSome, stepInto_isSome, Bool.or_eq_true,
        Expr.pathTo?_isSome_iff name x, Expr.pathTo?_isSome_iff name y]
      exact Nat.add_pos_iff_pos_or_pos.symm
  | .call _ arguments =>
      rw [Expr.pathTo?, Expr.occurrences_cons name _ arguments.walk rfl rfl]
      exact Arguments.pathTo?_isSome_iff name _ 0 arguments

theorem Arguments.pathTo?_isSome_iff (name : String) (parent : Expr R) (position : Nat)
    (arguments : Arguments R) :
    (arguments.pathTo? name parent position).isSome = true <->
      0 < arguments.walk.countP (Expr.isVar name) := by
  match arguments with
  | .nil => simp [Arguments.pathTo?, Arguments.walk]
  | .cons bound value rest =>
      rw [Arguments.pathTo?, Option.isSome_or, stepInto_isSome, stepInto_isSome, Bool.or_eq_true,
        Expr.pathTo?_isSome_iff name value, Arguments.pathTo?_isSome_iff name parent _ rest,
        Arguments.walk, List.countP_cons_of_neg (by simp [Expr.isVar]), List.countP_append]
      exact Nat.add_pos_iff_pos_or_pos.symm

end

/-! ## Where a way leads -/

/-- The children of an expression with two operands. -/
theorem mem_two_children {slot first second : Slot} {child x y : Expr R} :
    (slot, child) ∈ [(first, x), (second, y)] <->
      slot = first ∧ child = x ∨ slot = second ∧ child = y := by
  simp only [List.mem_cons, Prod.mk.injEq, List.not_mem_nil, or_false]

theorem stepInto_eq_some {parent : Expr R} {slot : Slot} {rest : Option (List (PathStep R))}
    {path : List (PathStep R)} (found : stepInto parent slot rest = some path) :
    ∃ steps, rest = some steps ∧ path = (parent, slot) :: steps := by
  rcases Option.map_eq_some_iff.mp found with ⟨steps, inner, rfl⟩
  exact ⟨steps, inner, rfl⟩

/--
A way is empty at the variable itself.  Otherwise it goes on in the first child in which
the variable is written.
-/
theorem Expr.pathTo?_split {name : String} {expr : Expr R} {path : List (PathStep R)}
    (found : expr.pathTo? name = some path) :
    (expr = .var name ∧ path = []) ∨
      ∃ slot child rest before after, path = (expr, slot) :: rest ∧
        expr.children = before ++ (slot, child) :: after ∧ child.pathTo? name = some rest ∧
        forall entry, entry ∈ before -> entry.2.occurrences name = 0 := by
  rw [Expr.pathTo?_eq] at found
  by_cases here : expr.isVar name = true
  · rw [if_pos here] at found
    refine Or.inl ⟨?_, (Option.some.inj found).symm⟩
    cases expr with
    | var other => rw [eq_of_beq here]
    | _ => cases here
  · rw [if_neg here] at found
    rcases List.findSome?_eq_some_iff.mp found with ⟨before, ⟨slot, child⟩, after, split, entered,
      passed⟩
    rcases stepInto_eq_some entered with ⟨rest, inner, rfl⟩
    refine Or.inr ⟨slot, child, rest, before, after, rfl, split, inner, fun entry member => ?_⟩
    have missed : (entry.2.pathTo? name).isSome = false := by
      rw [← stepInto_isSome expr entry.1, passed entry member]
      rfl
    refine Nat.eq_zero_of_not_pos fun written => ?_
    exact Bool.false_ne_true (missed.symm.trans ((Expr.pathTo?_isSome_iff name entry.2).mpr written))

/-- In short, it goes on in a child. -/
theorem Expr.pathTo?_step {name : String} {expr : Expr R} {path : List (PathStep R)}
    (found : expr.pathTo? name = some path) :
    (expr = .var name ∧ path = []) ∨
      ∃ slot child rest, path = (expr, slot) :: rest ∧
        (slot, child) ∈ expr.children ∧ child.pathTo? name = some rest := by
  refine (Expr.pathTo?_split found).imp_right ?_
  rintro ⟨slot, child, rest, before, after, same, split, inner, _⟩
  refine ⟨slot, child, rest, same, ?_, inner⟩
  rw [split]
  exact List.mem_append_right _ List.mem_cons_self

/-- Only the target itself has no way before it. -/
theorem Expr.eq_var_of_pathTo?_nil {name : String} {expr : Expr R}
    (found : expr.pathTo? name = some []) : expr = .var name := by
  rcases Expr.pathTo?_step found with ⟨same, _⟩ | ⟨_, _, _, impossible, _⟩
  · exact same
  · cases impossible

/-- A way with a first step starts at the expression and goes on in a child. -/
theorem Expr.of_pathTo?_cons {name : String} {expr : Expr R} {step : PathStep R}
    {rest : List (PathStep R)} (found : expr.pathTo? name = some (step :: rest)) :
    ∃ slot child, step = (expr, slot) ∧ (slot, child) ∈ expr.children ∧
      child.pathTo? name = some rest := by
  rcases Expr.pathTo?_step found with ⟨_, impossible⟩ | ⟨slot, child, _, same, member, inner⟩
  · cases impossible
  · cases same
    exact ⟨slot, child, rfl, member, inner⟩

end QuantityCalculus
