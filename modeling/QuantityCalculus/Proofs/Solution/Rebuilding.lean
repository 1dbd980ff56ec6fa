import Mathlib.Data.List.Nodup
import QuantityCalculus.Proofs.Arithmetic.Rationals
import QuantityCalculus.Proofs.Solution.Ways

namespace QuantityCalculus

/-!
# Rebuilding along a way

Listing the children, walking over all parts, searching a variable and replacing a child
are recursions of their own over the forms of expressions.  What ties them together is the
list of children: the walk and the search go through it in order, and replacing a child
changes it in one place.  With these equations no later proof looks at the forms again.

A parent is rebuilt through the name of a slot, and a binding of a call is named by a
number in brackets.  So slots are also read back from their names here.
-/

variable {R : Type}

/-! ## The names of slots -/

/-- The name of a slot stands for no other slot. -/
theorem Slot.ofName?_name (slot : Slot) : Slot.ofName? slot.name = some slot := by
  cases slot with
  | argument position =>
      have letters : (Slot.argument position).name.toList =
          "bindings".toList ++ '[' :: (Nat.toDigits 10 position ++ [']']) := by
        simp [Slot.name]
      have unnamed : (Slot.named.find? fun slot => slot.name == (argument position).name) =
          none := by
        refine List.find?_eq_none.mpr fun other member => ?_
        have brackets : '[' ∈ (argument position).name.toList := by simp [letters]
        rw [beq_iff_eq]
        rintro same
        rw [← same] at brackets
        have none : (Slot.named.all fun other => !other.name.toList.contains '[') = true := by
          decide
        have notThere := List.all_eq_true.mp none other member
        simp [brackets] at notThere
      have digits : ((argument position).name.toList.dropWhile (· != '[')).filter Char.isDigit =
          Nat.toDigits 10 position := by
        have numeric : (Nat.toDigits 10 position).filter Char.isDigit = Nat.toDigits 10 position :=
          List.filter_eq_self.mpr fun _ => Nat.isDigit_of_mem_toDigits (by decide) (by decide)
        have word : ("bindings".toList.all (· != '[')) = true := by decide
        rw [letters, List.dropWhile_append_of_pos (List.all_eq_true.mp word),
          List.dropWhile_cons_of_neg (by simp),
          List.filter_cons_of_neg (by decide), List.filter_append, numeric]
        exact List.append_nil _
      have value : (Nat.toDigits 10 position).foldl
          (fun value c => value * 10 + (c.toNat - 48)) 0 = position := by
        refine Eq.trans ?_ (Nat.ofDigitChars_toDigits (b := 10) (by decide) (by decide))
        exact List.foldl_ext _ _ 0 fun value c _ => by rw [Nat.mul_comm]; rfl
      simp only [Slot.ofName?, unnamed, digits, value, if_true]
  | _ => decide

/-! ## Children -/

/-- The bindings of a call stand in slots with different numbers. -/
theorem Arguments.of_mem_childrenFrom {arguments : Arguments R} {position : Nat} {slot : Slot}
    {child : Expr R} (member : (slot, child) ∈ arguments.childrenFrom position) :
    ∃ number name value, position ≤ number ∧ slot = .argument number ∧
      child = .binding name value := by
  match arguments with
  | .nil => cases member
  | .cons bound value rest =>
      rcases List.mem_cons.mp member with here | later
      · cases here
        exact ⟨position, bound, value, Nat.le_refl _, rfl, rfl⟩
      · rcases Arguments.of_mem_childrenFrom later with ⟨number, name, value, after, rfl, rfl⟩
        exact ⟨number, name, value, Nat.le_of_succ_le after, rfl, rfl⟩

theorem Arguments.nodup_slots (position : Nat) (arguments : Arguments R) :
    ((arguments.childrenFrom position).map Prod.fst).Nodup := by
  cases arguments with
  | nil => exact List.nodup_nil
  | cons bound value rest =>
      refine List.nodup_cons.mpr ⟨fun member => ?_, Arguments.nodup_slots (position + 1) rest⟩
      rcases List.mem_map.mp member with ⟨⟨slot, child⟩, inside, same⟩
      rcases Arguments.of_mem_childrenFrom inside with ⟨number, _, _, after, rfl, _⟩
      cases same
      exact Nat.lt_irrefl _ after

/-- No two children stand in the same slot. -/
theorem Expr.nodup_slots (expr : Expr R) : (expr.children.map Prod.fst).Nodup := by
  cases expr with
  | call function arguments => exact Arguments.nodup_slots 0 arguments
  | _ => simp [Expr.children]

/-! ## The child in a slot -/

/-- The child of an expression in a slot. -/
def Expr.child? (parent : Expr R) (slot : Slot) : Option (Expr R) :=
  (parent.children.find? fun entry => entry.1 == slot).map Prod.snd

section

variable {parent child : Expr R} {slot : Slot} {before after : List (Slot × Expr R)}

/-- The children before the one in a slot stand in other slots. -/
theorem Expr.before_slot (split : parent.children = before ++ (slot, child) :: after) :
    forall entry, entry ∈ before -> entry.1 ≠ slot := by
  have distinct := parent.nodup_slots
  rw [split, List.map_append, List.map_cons] at distinct
  intro entry member same
  exact (List.nodup_append.mp distinct).2.2 entry.1 (List.mem_map_of_mem member) slot
    List.mem_cons_self same

theorem Expr.child?_of_split (split : parent.children = before ++ (slot, child) :: after) :
    parent.child? slot = some child := by
  have passed : before.find? (fun entry => entry.1 == slot) = none :=
    List.find?_eq_none.mpr fun entry member => by
      simpa using Expr.before_slot split entry member
  rw [child?, split, List.find?_append, passed]
  simp

/-- Another child is the same in all expressions whose children differ in one slot. -/
theorem Expr.child?_other {next new : Expr R} {other : Slot}
    (split : parent.children = before ++ (slot, child) :: after)
    (changed : next.children = before ++ (slot, new) :: after) (different : other ≠ slot) :
    next.child? other = parent.child? other := by
  have passed : (slot == other) = false := beq_eq_false_iff_ne.mpr different.symm
  rw [child?, child?, split, changed]
  simp [passed]

end

/-- A pair alone is split in one way only. -/
theorem single_split {entry : Slot × Expr R} {before after : List (Slot × Expr R)}
    {slot : Slot} {child : Expr R} (split : [entry] = before ++ (slot, child) :: after) :
    before = [] ∧ after = [] ∧ entry = (slot, child) := by
  cases before with
  | nil => cases split; exact ⟨rfl, rfl, rfl⟩
  | cons first before => cases before <;> cases split

/-- Two pairs are split at the first or at the second. -/
theorem pair_split {first second : Slot × Expr R} {before after : List (Slot × Expr R)}
    {slot : Slot} {child : Expr R} (split : [first, second] = before ++ (slot, child) :: after) :
    (before = [] ∧ after = [second] ∧ first = (slot, child)) ∨
      (before = [first] ∧ after = [] ∧ second = (slot, child)) := by
  cases before with
  | nil => cases split; exact Or.inl ⟨rfl, rfl, rfl⟩
  | cons head before =>
      rcases List.cons.inj split with ⟨rfl, rest⟩
      rcases single_split rest with ⟨rfl, rfl, same⟩
      exact Or.inr ⟨rfl, rfl, same⟩

theorem Arguments.replaceAt?_split {arguments : Arguments R} {position number : Nat}
    {before after : List (Slot × Expr R)} {bound : String} {old : Expr R}
    (split : arguments.childrenFrom position =
      before ++ (.argument (position + number), .binding bound old) :: after)
    (name : String) (value : Expr R) :
    ∃ next, arguments.replaceAt? name value number = some next ∧
      next.childrenFrom position =
        before ++ (.argument (position + number), .binding name value) :: after ∧
      next.replaceAt? bound old number = some arguments := by
  match arguments with
  | .nil => cases before <;> cases split
  | .cons head first rest =>
      cases before with
      | nil =>
          rcases List.cons.inj split with ⟨here, rfl⟩
          have start : number = 0 := by
            have same := Slot.argument.inj (Prod.mk.inj here).1
            omega
          subst start
          cases here
          exact ⟨.cons name value rest, rfl, rfl, rfl⟩
      | cons entry before =>
          rcases List.cons.inj split with ⟨rfl, later⟩
          have further : .argument (position + number) ∈
              (rest.childrenFrom (position + 1)).map Prod.fst := by
            rw [later]
            simp
          rcases List.mem_map.mp further with ⟨⟨slot, inner⟩, inside, same⟩
          rcases Arguments.of_mem_childrenFrom inside with ⟨place, _, _, past, rfl, _⟩
          cases same
          cases number with
          | zero => exact absurd past (by omega)
          | succ number =>
              have shift : position + (number + 1) = position + 1 + number := by omega
              rw [shift] at later ⊢
              rcases Arguments.replaceAt?_split later name value with
                ⟨next, replaced, changed, back⟩
              refine ⟨.cons head first next, ?_, congrArg _ changed, ?_⟩
              · rw [Arguments.replaceAt?, replaced]
                rfl
              · rw [Arguments.replaceAt?, back]
                rfl

theorem Expr.isVar_of_mem_children {parent : Expr R} {entry : Slot × Expr R}
    (member : entry ∈ parent.children) (name : String) : parent.isVar name = false := by
  cases parent with
  | var other => cases member
  | _ => rfl

/--
A slot that is filled can be filled anew.  The children in the other slots stay, and so does
all else, since with the old child put back the expression is the old one.
-/
theorem Expr.replaceChild?_split {parent child new : Expr R} {slot : Slot}
    {before after : List (Slot × Expr R)}
    (split : parent.children = before ++ (slot, child) :: after)
    (fits : forall bound value, child = .binding bound value ->
      ∃ other, new = .binding bound other) :
    ∃ next, parent.replaceChild? slot new = some next ∧
      next.children = before ++ (slot, new) :: after ∧
      next.replaceChild? slot child = some parent ∧
      forall bound value, parent = .binding bound value -> ∃ other, next = .binding bound other := by
  cases parent with
  | num _ | var _ | mem | target _ => cases before <;> cases split
  | binding bound x =>
      rcases single_split split with ⟨rfl, rfl, same⟩
      cases same
      refine ⟨.binding bound new, rfl, rfl, rfl, ?_⟩
      rintro _ _ ⟨⟩
      exact ⟨new, rfl⟩
  | memAt x | func _ x | factorial x | sqrt x | abs x | paren x | marked _ x | declaration _ x =>
      rcases single_split split with ⟨rfl, rfl, same⟩
      cases same
      exact ⟨_, rfl, rfl, rfl, nofun⟩
  | root x y | fraction x y | binary _ x y | equation x y =>
      rcases pair_split split with ⟨rfl, rfl, same⟩ | ⟨rfl, rfl, same⟩ <;> cases same
      · exact ⟨_, rfl, rfl, rfl, nofun⟩
      · exact ⟨_, rfl, rfl, rfl, nofun⟩
  | call function arguments =>
      have member : (slot, child) ∈ (Expr.call function arguments).children := by
        rw [split]
        simp
      rcases Arguments.of_mem_childrenFrom member with ⟨number, bound, old, _, rfl, rfl⟩
      rcases fits bound old rfl with ⟨value, rfl⟩
      rw [← Nat.zero_add number] at split ⊢
      rcases Arguments.replaceAt?_split split bound value with ⟨next, replaced, changed, back⟩
      refine ⟨.call function next, ?_, changed, ?_, nofun⟩
      · rw [Nat.zero_add, replaceChild?, replaced]
        rfl
      · rw [Nat.zero_add, replaceChild?, back]
        rfl

/-! ## Ways into the children -/

/-- From an expression, the slots of a way lead through its parents to a part. -/
inductive LeadsTo (part : Expr R) : Expr R -> List (PathStep R) -> Prop where
  | here : LeadsTo part part []
  | into {parent child : Expr R} {slot : Slot} {rest : List (PathStep R)}
      (below : parent.child? slot = some child) (onward : LeadsTo part child rest) :
      LeadsTo part parent ((parent, slot) :: rest)

/-- The parts that are walked over before the end of a way. -/
def partsBefore : List (PathStep R) -> List (Expr R)
  | [] => []
  | (parent, slot) :: rest =>
      parent :: ((parent.children.takeWhile fun entry => entry.1 != slot).flatMap fun entry =>
        entry.2.walk) ++ partsBefore rest

/-- The part of an expression at the end of a list of slots. -/
def Expr.follow? (expr : Expr R) : List Slot -> Option (Expr R)
  | [] => some expr
  | slot :: rest => (expr.child? slot).bind fun child => child.follow? rest

/-- A child replaced in the slot of a name. -/
def Expr.replaceNamed? (parent : Expr R) (name : String) (new : Expr R) : Option (Expr R) :=
  (Slot.ofName? name).bind fun slot => parent.replaceChild? slot new

/-- The parents on a way built anew around a part, innermost first. -/
def rebuild? (path : List (PathStep R)) (new : Expr R) : Option (Expr R) :=
  path.foldrM (fun step current => step.1.replaceNamed? step.2.name current) new

/-- A way leads to a variable, and no part walked over before is that variable. -/
structure LeadsToFirst (expr : Expr R) (name : String) (path : List (PathStep R)) : Prop where
  leads : LeadsTo (.var name) expr path
  walked : ∃ after, expr.walk = partsBefore path ++ .var name :: after
  first : forall part, part ∈ partsBefore path -> part ≠ .var name

/--
A tree is an expression with the variable at the end of a way replaced.  The same slots lead to
the new part, with the variable put back there the expression is the old one, every slot that
the way does not pass is unchanged, and of the old parts only the variable is gone.
-/
structure Rebuilt (expr : Expr R) (name : String) (path : List (PathStep R)) (new tree : Expr R) :
    Prop where
  built : rebuild? path new = some tree
  there : ∃ again, again.map Prod.snd = path.map Prod.snd ∧ LeadsTo new tree again ∧
    rebuild? again (.var name) = some expr
  elsewhere : forall slots, ¬ slots <+: path.map Prod.snd -> ¬ path.map Prod.snd <+: slots ->
    tree.follow? slots = expr.follow? slots
  counts : forall other, tree.occurrences other + (if other = name then 1 else 0) =
    expr.occurrences other + new.occurrences other

theorem partsBefore_cons {parent child : Expr R} {slot : Slot}
    {before after : List (Slot × Expr R)}
    (split : parent.children = before ++ (slot, child) :: after) (rest : List (PathStep R)) :
    partsBefore ((parent, slot) :: rest) =
      parent :: (before.flatMap fun entry => entry.2.walk) ++ partsBefore rest := by
  have taken : (parent.children.takeWhile fun entry => entry.1 != slot) = before := by
    rw [split, List.takeWhile_append_of_pos fun entry member =>
      bne_iff_ne.mpr (Expr.before_slot split entry member), List.takeWhile_cons_of_neg (by simp),
      List.append_nil]
  rw [partsBefore, taken]

theorem rebuild?_cons (parent : Expr R) (slot : Slot) (rest : List (PathStep R)) (new : Expr R) :
    rebuild? ((parent, slot) :: rest) new =
      (rebuild? rest new).bind fun current => parent.replaceChild? slot current := by
  rw [rebuild?, List.foldrM_cons]
  exact congrArg (Option.bind (rebuild? rest new)) (funext fun current => by
    rw [Expr.replaceNamed?, Slot.ofName?_name, Option.bind_some])

/-- No part walked over is a variable that is not written. -/
theorem Expr.ne_var_of_mem_walk {name : String} {expr part : Expr R}
    (missing : expr.occurrences name = 0) (member : part ∈ expr.walk) : part ≠ .var name := by
  rintro rfl
  exact List.countP_eq_zero.mp missing _ member (beq_self_eq_true name)

/-- The way that the search finds leads to the first place where the variable is written. -/
theorem leadsToFirst {name : String} {expr : Expr R} {path : List (PathStep R)}
    (found : expr.pathTo? name = some path) : LeadsToFirst expr name path := by
  induction path generalizing expr with
  | nil =>
      rcases Expr.pathTo?_split found with ⟨rfl, _⟩ | ⟨_, _, _, _, _, impossible, _⟩
      · exact ⟨.here, ⟨[], by rw [Expr.walk]; rfl⟩, nofun⟩
      · cases impossible
  | cons step rest inductionHypothesis =>
      rcases Expr.pathTo?_split found with ⟨_, impossible⟩ |
        ⟨slot, child, _, before, after, same, split, inner, passed⟩
      · cases impossible
      cases same
      have below := inductionHypothesis inner
      have inside : (slot, child) ∈ expr.children := split ▸ by simp
      refine ⟨.into (Expr.child?_of_split split) below.leads, ?_, ?_⟩
      · rcases below.walked with ⟨behind, walked⟩
        rw [Expr.walk_eq, partsBefore_cons split, split, List.flatMap_append, List.flatMap_cons,
          walked]
        exact ⟨behind ++ after.flatMap fun entry => entry.2.walk, by simp⟩
      · rw [partsBefore_cons split]
        intro part member
        rcases List.mem_append.mp member with inFront | later
        · rcases List.mem_cons.mp inFront with rfl | earlier
          · rintro rfl
            exact absurd (beq_self_eq_true name) (by
              rw [show (name == name) = _ from Expr.isVar_of_mem_children inside name]
              simp)
          · rcases List.mem_flatMap.mp earlier with ⟨entry, inside, member⟩
            exact Expr.ne_var_of_mem_walk (passed entry inside) member
        · exact below.first part later

theorem Expr.occurrences_eq_sum {name : String} {expr : Expr R}
    (notVariable : expr.isVar name = false) :
    expr.occurrences name = (expr.children.map fun entry => entry.2.occurrences name).sum := by
  rw [Expr.occurrences, Expr.walk_eq, List.countP_cons_of_neg (by simp [notVariable]),
    List.countP_flatMap]
  rfl

/-- Along one step, what is written of every variable changes as much as in the child. -/
theorem Expr.occurrences_of_split {parent child : Expr R} {slot : Slot}
    {before after : List (Slot × Expr R)}
    (split : parent.children = before ++ (slot, child) :: after) (name : String) :
    parent.occurrences name = child.occurrences name +
      ((before ++ after).map fun entry => entry.2.occurrences name).sum := by
  have inside : (slot, child) ∈ parent.children := split ▸ by simp
  rw [Expr.occurrences_eq_sum (Expr.isVar_of_mem_children inside name), split]
  simp only [List.map_append, List.map_cons, List.sum_append, List.sum_cons]
  omega

/-- Around any part, the parents on a way can be built anew; a binding stays one. -/
theorem exists_rebuilt {name : String} {expr : Expr R} {path : List (PathStep R)}
    (found : expr.pathTo? name = some path) (new : Expr R) :
    ∃ tree, Rebuilt expr name path new tree ∧
      forall bound value, expr = .binding bound value -> ∃ other, tree = .binding bound other := by
  induction path generalizing expr with
  | nil =>
      rcases Expr.pathTo?_split found with ⟨rfl, _⟩ | ⟨_, _, _, _, _, impossible, _⟩
      · refine ⟨new, ⟨rfl, ⟨[], rfl, .here, rfl⟩,
          fun slots _ off => absurd List.nil_prefix off, fun other => ?_⟩,
          nofun⟩
        by_cases same : other = name <;>
          simp [same, Expr.occurrences, Expr.walk, Expr.isVar, Nat.add_comm, Ne.symm]
      · cases impossible
  | cons step rest inductionHypothesis =>
      rcases Expr.pathTo?_split found with ⟨_, impossible⟩ |
        ⟨slot, child, _, before, after, same, split, inner, _⟩
      · cases impossible
      cases same
      rcases inductionHypothesis inner with ⟨current, below, fits⟩
      rcases Expr.replaceChild?_split split fits with
        ⟨next, replaced, changed, back, binds⟩
      refine ⟨next, ⟨?_, ?_, ?_, ?_⟩, binds⟩
      · rw [rebuild?_cons, below.built, Option.bind_some, replaced]
      · rcases below.there with ⟨again, same, leads, restored⟩
        refine ⟨(next, slot) :: again, ?_, .into (Expr.child?_of_split changed) leads, ?_⟩
        · rw [List.map_cons, List.map_cons, same]
        · rw [rebuild?_cons, restored, Option.bind_some, back]
      · intro slots short long
        cases slots with
        | nil => exact absurd List.nil_prefix short
        | cons other more =>
            rw [Expr.follow?, Expr.follow?]
            by_cases passed : other = slot
            · subst passed
              rw [List.map_cons, List.cons_prefix_cons] at short long
              rw [Expr.child?_of_split changed, Expr.child?_of_split split, Option.bind_some,
                Option.bind_some]
              exact below.elsewhere more (fun starts => short ⟨rfl, starts⟩)
                fun starts => long ⟨rfl, starts⟩
            · rw [Expr.child?_other split changed passed]
      · intro other
        have inChild := below.counts other
        rw [Expr.occurrences_of_split split, Expr.occurrences_of_split changed]
        omega

/-! ## The search, the counts and the replacement -/

/--
The search finds no way exactly if the variable is not written.  A way that it finds leads to
the first place where the variable is written; and whatever is put there, rebuilding the
parents gives a tree that differs in this place alone and in which every variable is written
as often as before, but for the one replaced and those of the new part.
-/
theorem Expr.pathTo?_agrees (name : String) (expr : Expr R) :
    (expr.pathTo? name = none <-> expr.occurrences name = 0) ∧
      forall path, expr.pathTo? name = some path ->
        LeadsToFirst expr name path ∧ forall new, ∃ tree, Rebuilt expr name path new tree := by
  refine ⟨?_, fun path found => ⟨leadsToFirst found, fun new => ?_⟩⟩
  · rw [← Option.not_isSome_iff_eq_none, Expr.pathTo?_isSome_iff, Nat.pos_iff_ne_zero, not_not]
  · rcases exists_rebuilt found new with ⟨tree, rebuilt, _⟩
    exact ⟨tree, rebuilt⟩

/-- A call whose second binding has a variable of its own. -/
def twoBindings : Expr ℚ :=
  .call "f" (.cons "a" (.var "x") (.cons "b" (.binary .add (.var "x") (.paren (.var "y"))) .nil))

/-- The way to that variable passes the name of the second binding, and is rebuilt through it. -/
theorem twoBindings_rebuilt :
    twoBindings.occurrences "y" = 1 ∧
      ∃ path, twoBindings.pathTo? "y" = some path ∧
        path.map (fun step => step.2.name) = ["bindings[1]", "x", "y", "x"] ∧
        LeadsToFirst twoBindings "y" path ∧ ∃ tree, Rebuilt twoBindings "y" path (.var "x") tree := by
  rcases Option.isSome_iff_exists.mp (by decide : (twoBindings.pathTo? "y").isSome = true)
    with ⟨path, found⟩
  have agrees := (Expr.pathTo?_agrees "y" twoBindings).2 path found
  refine ⟨by decide, path, found, ?_, agrees.1, agrees.2 (.var "x")⟩
  cases found
  decide

end QuantityCalculus
