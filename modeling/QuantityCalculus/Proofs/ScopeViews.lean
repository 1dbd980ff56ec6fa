import Mathlib.Data.List.Destutter
import QuantityCalculus.Number.BinaryScalar
import QuantityCalculus.Proofs.Evaluation.CallScope

namespace QuantityCalculus

/-!
# What is in sight from a scope

Three operations ask for a name, each in a way of its own.  Whether it is bound is asked of
one scope after the other.  Looking it up stops at the first scope that binds it.  The table
of all bindings is laid out from the root inwards, and each scope writes over what the outer
ones have left.  The three agree, but not for any list of scopes: a chain has to follow the
parents up to a root, and no scope may bind a name twice, since a look-up finds the first
entry where writing over leaves the last.  Both hold of all scopes that steps at single
scopes bring about.

What is remembered in a scope is measured against the steps themselves.  It is what was sent
to the scope since its memory was last cleared, without each result that equals the one kept
before it.
-/

variable {R : Type}

/-! ## Steps -/

/-- What can be done at a scope. -/
inductive ScopeStep (R : Type) where
  | openChild (owner : Option (Expr R))
  | bind (name : String) (expr : Expr R) (fixed : Option ScopeId)
  | unbind (name : String)
  | clearBindings
  | clearMemory
  | remember (quantity : Quantity R)

namespace ScopeStep

variable [Scalar R]

/-- The scopes after a step at one of them; a step that fails changes nothing. -/
def run (scopes : Scopes R) (place : ScopeId) : ScopeStep R -> Scopes R
  | openChild owner => (scopes.openChild place owner).2
  | bind name expr fixed => scopes.bind place name expr fixed
  | unbind name => (scopes.unbind place name).toOption.getD scopes
  | clearBindings => scopes.clearBindings place
  | clearMemory => scopes.clearMemory place
  | remember quantity => scopes.pushMemory place quantity

/-- What becomes of the scope at which a step is made. -/
def change (scope : Scope R) : ScopeStep R -> Scope R
  | openChild _ => scope
  | bind name expr fixed => { scope with bindings := scope.bindings.set name ⟨expr, fixed⟩ }
  | unbind name => { scope with bindings := scope.bindings.remove name }
  | clearBindings => { scope with bindings := [] }
  | clearMemory => { scope with memory := [] }
  | remember quantity =>
      if Scopes.isLatest quantity scope.memory then scope
      else { scope with memory := quantity :: scope.memory }

end ScopeStep

/-- Scopes that steps have brought about since a root was opened, the latest step first. -/
inductive Scopes.Grown [Scalar R] : List (ScopeId × ScopeStep R) -> Scopes R -> Prop
  | root (enabled : List String) : Grown [] (Scopes.openRoot [] enabled).2
  | step {past : List (ScopeId × ScopeStep R)} {scopes : Scopes R} (grown : Grown past scopes)
      {place : ScopeId} (there : place < scopes.length) (step : ScopeStep R) :
      Grown ((place, step) :: past) (step.run scopes place)

/-- The results sent to a scope since its memory was last cleared, with a step made at it. -/
def ScopeStep.send (sent : List (Quantity R)) : ScopeStep R -> List (Quantity R)
  | remember quantity => quantity :: sent
  | clearMemory => []
  | _ => sent

/-- The results that were sent to a scope since its memory was last cleared, the latest first. -/
def sentTo (id : ScopeId) : List (ScopeId × ScopeStep R) -> List (Quantity R)
  | [] => []
  | (place, step) :: past => if place = id then step.send (sentTo id past) else sentTo id past

/-! ## What a step changes -/

namespace ScopeStep

variable [Scalar R] {scopes : Scopes R} {place : ScopeId}

theorem parent_change (step : ScopeStep R) (scope : Scope R) :
    (step.change scope).parent = scope.parent := by
  cases step with
  | remember quantity =>
      rw [change]
      split <;> rfl
  | _ => rfl

theorem distinct_change {scope : Scope R} (distinct : scope.bindings.keys.Nodup)
    (step : ScopeStep R) : (step.change scope).bindings.keys.Nodup := by
  cases step with
  | openChild _ => exact distinct
  | bind name expr fixed => exact Table.nodup_keys_set distinct name _
  | unbind name => exact Table.nodup_keys_remove distinct name
  | clearBindings => exact List.nodup_nil
  | clearMemory => exact distinct
  | remember quantity =>
      rw [change]
      split <;> exact distinct

/-- How many scopes a step opens. -/
def opens : ScopeStep R -> Nat
  | openChild _ => 1
  | _ => 0

theorem length_run (step : ScopeStep R) (scopes : Scopes R) (place : ScopeId) :
    (step.run scopes place).length = scopes.length + step.opens := by
  cases step with
  | openChild owner => rfl
  | unbind name =>
      rw [run, Scopes.unbind]
      split
      · exact Scopes.length_update _ _ _
      · rfl
  | _ => exact Scopes.length_update _ _ _

/-- A scope that was there stays as it was, unless the step was made at it. -/
theorem scope?_run (step : ScopeStep R) {id : ScopeId} (there : id < scopes.length) :
    (step.run scopes place).scope? id =
      (scopes.scope? id).map fun scope => if id = place then step.change scope else scope := by
  cases step with
  | openChild owner =>
      rw [run, Scopes.openChild, Scopes.scope?_cons_of_lt there]
      cases scopes.scope? id with
      | none => rfl
      | some scope => exact congrArg some (ite_self scope).symm
  | unbind name =>
      rw [run, Scopes.unbind]
      split
      · exact Scopes.scope?_update _ _ _ _
      · -- what is not bound can be taken away without a trace
        rename_i unbound
        rcases Scopes.exists_scope?_of_lt there with ⟨scope, found⟩
        change scopes.scope? id = _
        rw [found, Option.map_some]
        by_cases here : id = place
        · subst here
          rw [Scopes.ownBindings, found, Table.has, Option.not_isSome_iff_eq_none] at unbound
          have same : scope.bindings.remove name = scope.bindings :=
            Table.remove_of_get?_eq_none unbound
          rw [if_pos rfl, change, same]
        · rw [if_neg here]
  | _ => exact Scopes.scope?_update _ _ _ _

/-- A scope after a step was there before, or it is the child that the step has opened. -/
theorem scope?_run_cases {step : ScopeStep R} {id : ScopeId} {scope : Scope R}
    (found : (step.run scopes place).scope? id = some scope) :
    (∃ old, scopes.scope? id = some old ∧
        scope = if id = place then step.change old else old) ∨
      (id = scopes.length ∧ scope.parent = some place ∧ scope.bindings = [] ∧
        scope.memory = [] ∧ ∃ owner, step = .openChild owner) := by
  by_cases there : id < scopes.length
  · rw [scope?_run step there, Option.map_eq_some_iff] at found
    rcases found with ⟨old, wasThere, same⟩
    exact Or.inl ⟨old, wasThere, same.symm⟩
  · have inside := Scopes.lt_of_scope? found
    rw [length_run] at inside
    cases step with
    | openChild owner =>
        have new : id = scopes.length :=
          Nat.le_antisymm (Nat.le_of_lt_succ inside) (Nat.le_of_not_lt there)
        subst new
        rw [run, Scopes.openChild, Scopes.scope?_cons_length] at found
        cases found
        exact Or.inr ⟨rfl, rfl, rfl, rfl, owner, rfl⟩
    | _ => exact absurd inside there

end ScopeStep

/-! ## Trees of scopes -/

namespace Scopes

variable {scopes : Scopes R} {id : ScopeId} {scope : Scope R} {name : String}

/-- Every scope lies inside an older one, if inside any, and binds a name once. -/
structure IsTree (scopes : Scopes R) : Prop where
  older : forall {id scope parent}, scopes.scope? id = some scope ->
    scope.parent = some parent -> parent < id
  distinct : forall {id scope}, scopes.scope? id = some scope -> scope.bindings.keys.Nodup

/-- A root stands alone in its chain. -/
theorem chain_root (found : scopes.scope? id = some scope) (root : scope.parent = none) :
    scopes.chain id = [(id, scope)] := by
  induction scopes with
  | nil => cases found
  | cons first rest inductionHypothesis =>
      rw [scope?] at found
      rw [chain]
      split at found
      · rename_i here
        cases found
        rw [if_pos here, root]
      · rename_i elsewhere
        rw [if_neg elsewhere, inductionHypothesis found]

/-- A chain follows the parents. -/
theorem IsTree.chain_eq (tree : scopes.IsTree) (found : scopes.scope? id = some scope) :
    scopes.chain id = (id, scope) :: scope.parent.elim [] fun parent => scopes.chain parent := by
  cases inside : scope.parent with
  | none => exact chain_root found inside
  | some parent => exact chain_of_scope? found inside (tree.older found inside)

theorem IsTree.run [Scalar R] (tree : scopes.IsTree) {place : ScopeId}
    (there : place < scopes.length) (step : ScopeStep R) : (step.run scopes place).IsTree where
  older := by
    intro id scope parent found inside
    rcases ScopeStep.scope?_run_cases found with ⟨old, wasThere, rfl⟩ | ⟨rfl, opened, _⟩
    · refine tree.older wasThere ?_
      rw [← inside]
      split
      · exact (step.parent_change old).symm
      · rfl
    · cases opened.symm.trans inside
      exact there
  distinct := by
    intro id scope found
    rcases ScopeStep.scope?_run_cases found with ⟨old, wasThere, rfl⟩ | ⟨_, _, empty, _⟩
    · have distinct := tree.distinct wasThere
      split
      · exact ScopeStep.distinct_change distinct step
      · exact distinct
    · rw [empty]
      exact List.nodup_nil

theorem isTree_openRoot (enabled : List String) :
    IsTree (openRoot ([] : Scopes R) enabled).2 where
  older := by
    intro id scope parent found inside
    cases List.mem_singleton.mp (mem_of_scope? found)
    cases inside
  distinct := by
    intro id scope found
    cases List.mem_singleton.mp (mem_of_scope? found)
    exact List.nodup_nil

end Scopes

theorem Scopes.Grown.isTree [Scalar R] {past : List (ScopeId × ScopeStep R)} {scopes : Scopes R}
    (grown : Scopes.Grown past scopes) : scopes.IsTree := by
  induction grown with
  | root enabled => exact Scopes.isTree_openRoot enabled
  | step _ there step inductionHypothesis => exact inductionHypothesis.run there step

/-! ## Names -/

namespace Scopes

variable {scopes : Scopes R} {id : ScopeId} {name : String}

/-- What is found in a chain stands in the innermost scope that binds the name. -/
theorem lookupIn?_eq_some_iff {chain : List (ScopeId × Scope R)} {definedIn : ScopeId}
    {bound : BoundExpr R} :
    lookupIn? name chain = some (definedIn, bound) <->
      ∃ inner scope outer, chain = inner ++ (definedIn, scope) :: outer ∧
        scope.bindings.get? name = some bound ∧
        forall entry, entry ∈ inner -> name ∉ entry.2.bindings.keys := by
  induction chain with
  | nil => simp [lookupIn?]
  | cons entry outer inductionHypothesis =>
      rw [lookupIn?]
      cases here : entry.2.bindings.get? name with
      | some value =>
          constructor
          · intro found
            cases found
            exact ⟨[], entry.2, outer, rfl, here, List.forall_mem_nil _⟩
          · rintro ⟨inner, scope, further, split, binding, free⟩
            cases inner with
            | nil =>
                cases split
                exact congrArg (fun value => some (definedIn, value))
                  (Option.some.inj (here.symm.trans binding))
            | cons first inner =>
                cases split
                exact absurd (Table.mem_keys_of_get? here) (free _ List.mem_cons_self)
      | none =>
          have free := (Table.get?_eq_none_iff _ _).mp here
          change lookupIn? name outer = _ <-> _
          rw [inductionHypothesis]
          constructor
          · rintro ⟨inner, scope, further, rfl, binding, others⟩
            exact ⟨entry :: inner, scope, further, rfl, binding,
              List.forall_mem_cons.mpr ⟨free, others⟩⟩
          · rintro ⟨inner, scope, further, split, binding, others⟩
            cases inner with
            | nil =>
                cases split
                cases here.symm.trans binding
            | cons first inner =>
                cases split
                exact ⟨inner, scope, further, rfl, binding, (List.forall_mem_cons.mp others).2⟩

/-- Writing over from the root inwards leaves what a look-up finds first. -/
theorem get?_foldr_update {chain : List (ScopeId × Scope R)}
    (distinct : forall entry, entry ∈ chain -> entry.2.bindings.keys.Nodup) (name : String) :
    Table.get? name (chain.foldr (fun entry visible => visible.update entry.2.bindings) []) =
      (lookupIn? name chain).map Prod.snd := by
  induction chain with
  | nil => rfl
  | cons entry outer inductionHypothesis =>
      rcases List.forall_mem_cons.mp distinct with ⟨here, others⟩
      rw [List.foldr_cons, Table.get?_update _ here, inductionHypothesis others, lookupIn?]
      cases entry.2.bindings.get? name <;> rfl

theorem IsTree.get?_visible (tree : scopes.IsTree) (id : ScopeId) (name : String) :
    (scopes.visible id).get? name = (scopes.lookup? id name).map Prod.snd :=
  get?_foldr_update (fun _ member => tree.distinct (scope?_of_mem_chain member)) name

theorem lookup_eq_ok_iff {found : ScopeId × BoundExpr R} :
    scopes.lookup id name = .ok found <-> scopes.lookup? id name = some found := by
  rw [lookup]
  cases scopes.lookup? id name with
  | none => exact ⟨nofun, nofun⟩
  | some other => exact ⟨fun same => congrArg some (Except.ok.inj same),
      fun same => congrArg Except.ok (Option.some.inj same)⟩

/-- The three ways to ask for a name agree, and lead to the innermost scope that binds it. -/
structure NamesAgree (scopes : Scopes R) (id : ScopeId) : Prop where
  keys : forall name, scopes.isBound id name = true <-> name ∈ (scopes.visible id).keys
  found : forall name, scopes.isBound id name = true <-> ∃ found, scopes.lookup id name = .ok found
  missing : forall name, scopes.isBound id name = false ->
    scopes.lookup id name = .error (.unknownVariable name)
  innermost : forall name definedIn bound, scopes.lookup id name = .ok (definedIn, bound) <->
    ∃ inner scope outer, scopes.chain id = inner ++ (definedIn, scope) :: outer ∧
      scope.bindings.get? name = some bound ∧
      forall entry, entry ∈ inner -> name ∉ entry.2.bindings.keys
  visible : forall name definedIn bound, scopes.lookup id name = .ok (definedIn, bound) ->
    (scopes.visible id).get? name = some bound

theorem IsTree.namesAgree (tree : scopes.IsTree) (id : ScopeId) : scopes.NamesAgree id where
  keys := by
    intro name
    rw [isBound_eq, ← not_iff_not, ← Table.get?_eq_none_iff, tree.get?_visible]
    cases scopes.lookup? id name <;> simp
  found := by
    intro name
    simp only [isBound_eq, lookup_eq_ok_iff, Option.isSome_iff_exists]
  missing := by
    intro name unbound
    rw [isBound_eq, Option.isSome_eq_false_iff, Option.isNone_iff_eq_none] at unbound
    rw [lookup, unbound]
  innermost := fun _ _ _ => lookup_eq_ok_iff.trans lookupIn?_eq_some_iff
  visible := by
    intro name definedIn bound found
    rw [tree.get?_visible, lookup_eq_ok_iff.mp found, Option.map_some]

end Scopes

/-! ## Memory -/

/-- The last item is kept if it is related to the one kept before it. -/
theorem destutter_concat {α : Type} {related : α -> α -> Prop} [DecidableRel related]
    (items : List α) (last : α) :
    (items ++ [last]).destutter related =
      if forall kept, (items.destutter related).getLast? = some kept -> related kept last then
        items.destutter related ++ [last]
      else items.destutter related := by
  cases items with
  | nil => exact (if_pos nofun).symm
  | cons first items =>
      rw [List.cons_append, List.destutter_cons', List.destutter_cons']
      induction items generalizing first with
      | nil => simp
      | cons second items inductionHypothesis =>
          rw [List.cons_append]
          by_cases keeps : related first second
          · have kept := List.destutter'_ne_nil items (a := second) related
            rw [List.destutter'_cons_pos _ keeps, List.destutter'_cons_pos _ keeps,
              inductionHypothesis, List.getLast?_cons_of_ne_nil kept]
            split <;> rfl
          · rw [List.destutter'_cons_neg _ keeps, List.destutter'_cons_neg _ keeps,
              inductionHypothesis]

/-- A result that does not equal the one kept before it. -/
def Quantity.Differs [Scalar R] (kept next : Quantity R) : Prop :=
  kept.same next = false

instance [Scalar R] : DecidableRel (Quantity.Differs (R := R)) :=
  fun kept next => inferInstanceAs (Decidable (kept.same next = false))

namespace Scopes.Grown

variable [Scalar R] {past : List (ScopeId × ScopeStep R)} {scopes : Scopes R} {id : ScopeId}

/-- Nothing was sent to a scope before it was there. -/
theorem sentTo_beyond (grown : Grown past scopes) (beyond : scopes.length ≤ id) :
    sentTo id past = [] := by
  induction grown with
  | root _ => rfl
  | @step past scopes _ place there step inductionHypothesis =>
      rw [ScopeStep.length_run] at beyond
      have before : scopes.length ≤ id := Nat.le_of_add_right_le beyond
      rw [sentTo, if_neg (Nat.ne_of_lt (Nat.lt_of_lt_of_le there before)),
        inductionHypothesis before]

/-- A result is remembered unless it equals the latest one. -/
theorem reverse_remembered {memory sent : List (Quantity R)}
    (kept : memory.reverse = sent.reverse.destutter Quantity.Differs) (quantity : Quantity R) :
    (if Scopes.isLatest quantity memory then memory else quantity :: memory).reverse =
      (quantity :: sent).reverse.destutter Quantity.Differs := by
  rw [List.reverse_cons, destutter_concat, ← kept]
  cases memory with
  | nil => exact (if_pos nofun).symm
  | cons latest earlier =>
      have last : (latest :: earlier).reverse.getLast? = some latest := by
        rw [List.getLast?_reverse, List.head?_cons]
      rw [last, Scopes.isLatest]
      cases equal : latest.same quantity with
      | true =>
          rw [if_pos rfl, if_neg]
          intro differs
          cases equal.symm.trans (differs latest rfl)
      | false =>
          rw [if_neg Bool.false_ne_true, if_pos, List.reverse_cons]
          rintro _ ⟨⟩
          exact equal

/-- What a scope remembers is what was sent to it, without repetitions. -/
theorem memory_eq (grown : Grown past scopes) {scope : Scope R}
    (found : scopes.scope? id = some scope) :
    scope.memory.reverse = (sentTo id past).reverse.destutter Quantity.Differs := by
  induction grown generalizing scope with
  | root _ =>
      cases List.mem_singleton.mp (Scopes.mem_of_scope? found)
      rfl
  | @step past scopes grown place there step inductionHypothesis =>
      rcases ScopeStep.scope?_run_cases found with
        ⟨old, wasThere, rfl⟩ | ⟨rfl, _, _, empty, owner, rfl⟩
      · have before := inductionHypothesis wasThere
        rw [sentTo]
        by_cases here : id = place
        · rw [if_pos here, if_pos here.symm]
          cases step with
          | remember quantity =>
              refine Eq.trans ?_ (reverse_remembered before quantity)
              rw [ScopeStep.change]
              split <;> rfl
          | clearMemory => rfl
          | _ => exact before
        · rw [if_neg here, if_neg (Ne.symm here)]
          exact before
      · rw [empty, sentTo, if_neg (Nat.ne_of_lt there),
          grown.sentTo_beyond (Nat.le_refl _)]
        rfl

end Scopes.Grown

namespace Scopes

variable {scopes : Scopes R} {id : ScopeId} {scope : Scope R}

/-- What is remembered in a scope comes before what is remembered around it. -/
theorem IsTree.memoryValues_eq (tree : scopes.IsTree) (found : scopes.scope? id = some scope) :
    scopes.memoryValues id =
      scope.memory ++ scope.parent.elim [] fun parent => scopes.memoryValues parent := by
  rw [memoryValues, tree.chain_eq found, List.flatMap_cons]
  cases scope.parent <;> rfl

theorem memoryAt_eq_ok_iff {index : Int} {quantity : Quantity R} :
    scopes.memoryAt id index = .ok quantity <->
      ∃ position : Nat, index = position ∧ (scopes.memoryValues id)[position]? = some quantity := by
  cases index with
  | negSucc _ =>
      refine ⟨nofun, ?_⟩
      rintro ⟨_, impossible, _⟩
      cases impossible
  | ofNat position =>
      rw [memoryAt]
      constructor
      · intro found
        cases value : (scopes.memoryValues id)[position]? with
        | none =>
            rw [value] at found
            cases found
        | some other =>
            rw [value] at found
            cases found
            exact ⟨position, rfl, value⟩
      · rintro ⟨_, same, value⟩
        cases Int.ofNat.inj same
        rw [value]

/-- The results in sight from a scope: its own from the latest to the earliest, none of which
equals the one kept before it, and then those of its parent. -/
structure MemoryOrdered [Scalar R] (past : List (ScopeId × ScopeStep R)) (scopes : Scopes R)
    (id : ScopeId) (scope : Scope R) : Prop where
  own : scope.memory.reverse = (sentTo id past).reverse.destutter Quantity.Differs
  neighbours : scope.memory.reverse.IsChain Quantity.Differs
  outward : scopes.memoryValues id =
    scope.memory ++ scope.parent.elim [] fun parent => scopes.memoryValues parent
  counted : forall index, (∃ quantity, scopes.memoryAt id index = .ok quantity) <->
    0 ≤ index ∧ index < (scopes.memoryValues id).length
  value : forall (position : Nat) quantity, scopes.memoryAt id position = .ok quantity <->
    (scopes.memoryValues id)[position]? = some quantity

theorem memoryOrdered [Scalar R] {past : List (ScopeId × ScopeStep R)}
    (grown : Grown past scopes) (found : scopes.scope? id = some scope) :
    MemoryOrdered past scopes id scope where
  own := grown.memory_eq found
  neighbours := by
    rw [grown.memory_eq found]
    exact List.isChain_destutter _ _
  outward := grown.isTree.memoryValues_eq found
  counted := by
    intro index
    simp only [memoryAt_eq_ok_iff]
    constructor
    · rintro ⟨quantity, position, rfl, value⟩
      exact ⟨Int.natCast_nonneg _, Int.ofNat_lt.mpr (List.getElem?_eq_some_iff.mp value).1⟩
    · rintro ⟨natural, below⟩
      rcases Int.eq_ofNat_of_zero_le natural with ⟨position, rfl⟩
      exact ⟨_, position, rfl, List.getElem?_eq_getElem (Int.ofNat_lt.mp below)⟩
  value := by
    intro position quantity
    rw [memoryAt_eq_ok_iff]
    constructor
    · rintro ⟨_, same, value⟩
      cases Int.ofNat.inj same
      exact value
    · exact fun value => ⟨position, rfl, value⟩

/-! ## What a step leaves alone -/

/-- A scope is another one or lies inside it. -/
inductive IsWithin (scopes : Scopes R) : ScopeId -> ScopeId -> Prop
  | self (id : ScopeId) : IsWithin scopes id id
  | inside {id parent outer : ScopeId} {scope : Scope R} (found : scopes.scope? id = some scope)
      (opened : scope.parent = some parent) (within : IsWithin scopes parent outer) :
      IsWithin scopes id outer

theorem IsTree.le_of_isWithin (tree : scopes.IsTree) {outer : ScopeId}
    (within : scopes.IsWithin id outer) : outer ≤ id := by
  induction within with
  | self id => exact Nat.le_refl id
  | inside found opened _ inductionHypothesis =>
      exact Nat.le_trans inductionHypothesis (Nat.le_of_lt (tree.older found opened))

/-- Every view from a scope shows the same. -/
structure SameViews (before after : Scopes R) (id : ScopeId) : Prop where
  isBound : forall name, after.isBound id name = before.isBound id name
  lookup : forall name, after.lookup id name = before.lookup id name
  visible : after.visible id = before.visible id
  memoryValues : after.memoryValues id = before.memoryValues id
  memoryAt : forall index, after.memoryAt id index = before.memoryAt id index

theorem sameViews_of_chain {before after : Scopes R} (same : after.chain id = before.chain id) :
    SameViews before after id := by
  have values : after.memoryValues id = before.memoryValues id := by
    rw [memoryValues, same, memoryValues]
  refine ⟨fun name => ?_, fun name => ?_, ?_, values, fun index => ?_⟩
  · rw [isBound, same, isBound]
  · rw [lookup, lookup?, same, lookup, lookup?]
  · rw [visible, same, visible]
  · rw [memoryAt.eq_def, values, memoryAt.eq_def]

/-- Outside the scope where a step is made, and what lies inside it, every chain stays. -/
theorem IsTree.chain_run [Scalar R] (tree : scopes.IsTree) {place : ScopeId}
    (here : place < scopes.length) (step : ScopeStep R) (there : id < scopes.length)
    (outside : ¬ scopes.IsWithin id place) :
    (step.run scopes place).chain id = scopes.chain id := by
  -- the parents are older, so the induction is on the place
  induction id using Nat.strongRecOn with
  | ind id inductionHypothesis =>
      rcases exists_scope?_of_lt there with ⟨scope, found⟩
      have other : id ≠ place := by
        rintro rfl
        exact outside (.self id)
      have kept : (step.run scopes place).scope? id = some scope := by
        rw [ScopeStep.scope?_run step there, found, Option.map_some, if_neg other]
      rw [(tree.run here step).chain_eq kept, tree.chain_eq found]
      cases opened : scope.parent with
      | none => rfl
      | some parent =>
          have older := tree.older found opened
          exact congrArg _ (inductionHypothesis parent older (Nat.lt_trans older there)
            fun within => outside (.inside found opened within))

/-- In scopes that steps have brought about, from every scope the ways to ask for a name agree
and what is remembered stands in order, and a step shows only at its scope and inside it. -/
theorem views_agree [Scalar R] {past : List (ScopeId × ScopeStep R)} (grown : Grown past scopes) :
    (forall id, id < scopes.length -> ∃ scope, scopes.scope? id = some scope ∧
      scopes.chain id = (id, scope) :: (scope.parent.elim [] fun parent => scopes.chain parent) ∧
      scopes.NamesAgree id ∧ MemoryOrdered past scopes id scope) ∧
    forall place (step : ScopeStep R) id, place < scopes.length -> id < scopes.length ->
      ¬ scopes.IsWithin id place -> SameViews scopes (step.run scopes place) id := by
  have tree := grown.isTree
  constructor
  · intro id there
    rcases exists_scope?_of_lt there with ⟨scope, found⟩
    exact ⟨scope, found, tree.chain_eq found, tree.namesAgree id, memoryOrdered grown found⟩
  · intro place step id here there outside
    exact sameViews_of_chain (tree.chain_run here step there outside)

/-- Two results for a root and one, sent twice, for a scope in it, which binds `x` once more. -/
def shadowingSteps : List (ScopeId × ScopeStep Float) :=
  [(1, .remember (.ofScalar 3)), (1, .remember (.ofScalar 3)), (1, .bind "x" (.num 2) none),
    (0, .openChild none), (0, .remember (.ofScalar 1)), (0, .bind "x" (.num 1) none)]

def shadowingScopes : Scopes Float :=
  shadowingSteps.foldr (fun entry scopes => entry.2.run scopes entry.1) (openRoot [] []).2

theorem grown_shadowing : Grown shadowingSteps shadowingScopes :=
  (((((Grown.root []).step (by decide) _).step (by decide) _).step (by decide) _).step
    (by decide) _).step (by decide) _ |>.step (by decide) _

theorem views_agree_shadowing :
    Grown shadowingSteps shadowingScopes ∧ 1 < shadowingScopes.length ∧
      ¬ shadowingScopes.IsWithin 0 1 ∧
      (∃ scope, shadowingScopes.scope? 1 = some scope ∧ shadowingScopes.NamesAgree 1 ∧
        MemoryOrdered shadowingSteps shadowingScopes 1 scope) ∧
      SameViews shadowingScopes ((ScopeStep.bind "y" (.var "x") none).run shadowingScopes 1) 0 ∧
      (shadowingScopes.lookup 1 "x").toOption.map Prod.fst = some 1 ∧
      (shadowingScopes.memoryValues 1).map Quantity.text = ["3", "1"] := by
  have outside : ¬ shadowingScopes.IsWithin 0 1 := by
    intro within
    have further := grown_shadowing.isTree.le_of_isWithin within
    exact absurd further (by decide)
  have agree := views_agree grown_shadowing
  rcases agree.1 1 (by decide) with ⟨scope, found, _, names, memory⟩
  refine ⟨grown_shadowing, by decide, outside, ⟨scope, found, names, memory⟩,
    agree.2 1 _ 0 (by decide) (by decide) outside, by decide +kernel, by decide +kernel⟩

end Scopes
end QuantityCalculus
