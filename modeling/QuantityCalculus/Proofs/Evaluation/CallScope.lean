import QuantityCalculus.Evaluation
import QuantityCalculus.Proofs.Scopes
import QuantityCalculus.Proofs.Tables

namespace QuantityCalculus

/-!
# Scopes with one more in front

A call opens a scope and leaves all others as they are.  What was visible from an older
scope stays visible there, because a chain of scopes only goes back.  In the new scope a
name is found among the arguments, then among the defaults that took effect, and then
where the call stands.
-/

variable {R : Type}

namespace Scopes

variable {scopes : Scopes R} {new : Scope R} {id : ScopeId} {name : String}

theorem chain_cons_of_lt (older : id < scopes.length) :
    Scopes.chain id (new :: scopes) = scopes.chain id := by
  rw [chain, if_neg (Nat.ne_of_lt older)]

theorem lookup?_cons_of_lt (older : id < scopes.length) :
    Scopes.lookup? (new :: scopes) id name = scopes.lookup? id name := by
  rw [lookup?, chain_cons_of_lt older, lookup?]

theorem enabledIn_cons_of_lt (older : id < scopes.length) :
    Scopes.enabledIn (new :: scopes) id = scopes.enabledIn id := by
  rw [enabledIn, scope?, if_neg (Nat.ne_of_lt older), enabledIn]

theorem enabledIn_cons_length :
    Scopes.enabledIn (new :: scopes) scopes.length = new.enabled := by
  rw [enabledIn, scope?, if_pos rfl]
  rfl

/-- From the new scope the search goes on where it was opened. -/
theorem chain_cons_length {parent : ScopeId} (inside : new.parent = some parent) :
    Scopes.chain scopes.length (new :: scopes) = (scopes.length, new) :: scopes.chain parent := by
  rw [chain, if_pos rfl, inside]

theorem lookup?_cons_length {parent : ScopeId} (inside : new.parent = some parent) :
    Scopes.lookup? (new :: scopes) scopes.length name =
      match new.bindings.get? name with
      | some bound => some (scopes.length, bound)
      | none => scopes.lookup? parent name := by
  rw [lookup?, chain_cons_length inside, lookupIn?]
  rfl

/-- A name is bound around a scope when looking it up finds something. -/
theorem isBound_eq : scopes.isBound id name = (scopes.lookup? id name).isSome := by
  rw [isBound, lookup?]
  generalize scopes.chain id = chain
  induction chain with
  | nil => rfl
  | cons entry outer inductionHypothesis =>
      rw [List.any_cons, lookupIn?, inductionHypothesis, Table.has]
      cases entry.2.bindings.get? name <;> rfl

/-- A chain consists of scopes that are there. -/
theorem of_mem_chain {entry : ScopeId × Scope R} (member : entry ∈ scopes.chain id) :
    entry.1 < scopes.length ∧ entry.2 ∈ scopes := by
  induction scopes generalizing id with
  | nil => cases member
  | cons scope older inductionHypothesis =>
      have further : forall {id}, entry ∈ Scopes.chain id older ->
          entry.1 < older.length + 1 ∧ entry.2 ∈ scope :: older := by
        intro id outer
        rcases inductionHypothesis outer with ⟨below, there⟩
        exact ⟨Nat.lt_succ_of_lt below, List.mem_cons_of_mem _ there⟩
      rw [chain] at member
      split at member
      · rename_i here
        rcases List.mem_cons.mp member with rfl | outer
        · exact ⟨Nat.lt_succ_of_le (Nat.le_of_eq here), List.mem_cons_self⟩
        · cases parent : scope.parent with
          | none =>
              rw [parent] at outer
              cases outer
          | some parentId =>
              rw [parent] at outer
              exact further outer
      · exact further member

/-- A chain only goes back. -/
theorem le_of_mem_chain {entry : ScopeId × Scope R} (member : entry ∈ scopes.chain id) :
    entry.1 <= id := by
  induction scopes generalizing id with
  | nil => cases member
  | cons scope older inductionHypothesis =>
      rw [chain] at member
      split at member
      · rename_i here
        rcases List.mem_cons.mp member with rfl | outer
        · exact Nat.le_refl _
        · cases parent : scope.parent with
          | none =>
              rw [parent] at outer
              cases outer
          | some parentId =>
              rw [parent] at outer
              exact here ▸ Nat.le_of_lt (of_mem_chain outer).1
      · exact inductionHypothesis member

/-- A chain is changed in the one scope, as long as that scope keeps its parent. -/
theorem chain_update {change : Scope R -> Scope R}
    (parent : forall scope, (change scope).parent = scope.parent) (scopes : Scopes R)
    (place : ScopeId) :
    (scopes.update id change).chain place =
      (scopes.chain place).map fun entry =>
        if entry.1 = id then (entry.1, change entry.2) else entry := by
  induction scopes generalizing place with
  | nil => rfl
  | cons scope older inductionHypothesis =>
      rw [update]
      by_cases changed : id = older.length
      · -- The scopes that are older than the changed one stay as they are.
        have untouched : forall place, Scopes.chain place older =
            (Scopes.chain place older).map fun entry =>
              if entry.1 = id then (entry.1, change entry.2) else entry := by
          intro place
          refine ((List.map_congr_left fun entry member => ?_).trans (List.map_id _)).symm
          exact if_neg fun same => Nat.ne_of_lt (of_mem_chain member).1 (same.trans changed)
        rw [if_pos changed, chain, chain, parent]
        split
        · rename_i here
          rw [List.map_cons, if_pos (here.trans changed.symm)]
          cases scope.parent with
          | none => rfl
          | some outer => exact congrArg _ (untouched outer)
        · exact untouched place
      · rw [if_neg changed, chain, chain, length_update]
        split
        · rename_i here
          rw [List.map_cons, if_neg fun same => changed (same.symm.trans here)]
          cases scope.parent with
          | none => rfl
          | some outer => exact congrArg _ (inductionHypothesis outer)
        · exact inductionHypothesis place

/-- A scope stands before the chain of the scope that it was opened in. -/
theorem chain_of_scope? {scope : Scope R} {parent : ScopeId}
    (found : scopes.scope? id = some scope) (inside : scope.parent = some parent)
    (older : parent < id) : scopes.chain id = (id, scope) :: scopes.chain parent := by
  induction scopes with
  | nil => cases found
  | cons first rest inductionHypothesis =>
      rw [scope?] at found
      rw [chain]
      split at found
      · rename_i here
        cases found
        rw [if_pos here, inside, chain_cons_of_lt (here ▸ older)]
      · rename_i elsewhere
        rw [if_neg elsewhere, inductionHypothesis found,
          chain_cons_of_lt (Nat.lt_trans older (lt_of_scope? found))]

/-- What is found in a chain is what one of its scopes binds the name to. -/
theorem lookupIn?_holder {chain : List (ScopeId × Scope R)} {definedIn : ScopeId}
    {bound : BoundExpr R} (found : lookupIn? name chain = some (definedIn, bound)) :
    ∃ scope, (definedIn, scope) ∈ chain ∧ scope.bindings.get? name = some bound := by
  induction chain with
  | nil => cases found
  | cons entry outer inductionHypothesis =>
      rcases entry with ⟨id, scope⟩
      rw [lookupIn?] at found
      cases here : scope.bindings.get? name with
      | some value =>
          rw [here] at found
          cases found
          exact ⟨scope, List.mem_cons_self, here⟩
      | none =>
          rw [here] at found
          rcases inductionHypothesis found with ⟨holder, member, binding⟩
          exact ⟨holder, List.mem_cons_of_mem _ member, binding⟩

theorem lookupIn?_mem {chain : List (ScopeId × Scope R)} {definedIn : ScopeId}
    {bound : BoundExpr R} (found : lookupIn? name chain = some (definedIn, bound)) :
    ∃ scope, (definedIn, scope) ∈ chain ∧ (name, bound) ∈ scope.bindings := by
  rcases lookupIn?_holder found with ⟨scope, member, binding⟩
  exact ⟨scope, member, Table.mem_of_get? binding⟩

/-- The scope of an entry of a chain is the scope at its place. -/
theorem scope?_of_mem_chain {entry : ScopeId × Scope R} (member : entry ∈ scopes.chain id) :
    scopes.scope? entry.1 = some entry.2 := by
  induction scopes generalizing id with
  | nil => cases member
  | cons scope older inductionHypothesis =>
      have further : forall {id}, entry ∈ Scopes.chain id older ->
          Scopes.scope? entry.1 (scope :: older) = some entry.2 := by
        intro id outer
        rw [scope?, if_neg (Nat.ne_of_lt (of_mem_chain outer).1)]
        exact inductionHypothesis outer
      rw [chain] at member
      split at member
      · rename_i here
        rcases List.mem_cons.mp member with rfl | outer
        · rw [scope?, if_pos here]
        · cases parent : scope.parent with
          | none =>
              rw [parent] at outer
              cases outer
          | some parentId =>
              rw [parent] at outer
              exact further outer
      · exact further member

/-- What is found under a name depends only on the scope that holds it. -/
theorem lookup?_unique {other definedIn : ScopeId} {bound found : BoundExpr R}
    (here : scopes.lookup? id name = some (definedIn, bound))
    (there : scopes.lookup? other name = some (definedIn, found)) : bound = found := by
  rcases lookupIn?_holder here with ⟨scope, member, binding⟩
  rcases lookupIn?_holder there with ⟨holder, otherMember, otherBinding⟩
  have same : some scope = some holder :=
    (scope?_of_mem_chain member).symm.trans (scope?_of_mem_chain otherMember)
  cases same
  exact Option.some.inj (binding.symm.trans otherBinding)

/-- What is looked up is bound in some scope. -/
theorem lookup?_mem {definedIn : ScopeId} {bound : BoundExpr R}
    (found : scopes.lookup? id name = some (definedIn, bound)) :
    ∃ scope, scope ∈ scopes ∧ (name, bound) ∈ scope.bindings := by
  rcases lookupIn?_mem found with ⟨scope, member, binding⟩
  exact ⟨scope, (of_mem_chain member).2, binding⟩

end Scopes

/-! ## The scope of a call -/

/-- What the defaults of a function bind where a call stands. -/
def suppliedDefaults (scopes : Scopes R) (scope : ScopeId) (definition : FunctionDefinition R) :
    Table (BoundExpr R) :=
  (definition.defaults.filter fun entry => !scopes.isBound scope entry.1).map
    fun entry => (entry.1, ⟨entry.2, none⟩)

/-- What the arguments of a call bind. -/
def givenArguments (scope : ScopeId) (arguments : List (String × Expr R)) :
    Table (BoundExpr R) :=
  arguments.map fun entry => (entry.1, ⟨entry.2, some scope⟩)

/-- The scope that a call opens. -/
def openedScope (scopes : Scopes R) (scope : ScopeId) (definition : FunctionDefinition R)
    (arguments : List (String × Expr R)) : Scope R where
  parent := some scope
  owner := some definition.body
  bindings := (suppliedDefaults scopes scope definition).update (givenArguments scope arguments)
  memory := []
  enabled := scopes.enabledIn scope

theorem callScope_eq (scopes : Scopes R) (scope : ScopeId) (definition : FunctionDefinition R)
    (arguments : List (String × Expr R)) :
    callScope scopes scope definition arguments =
      (scopes.length, openedScope scopes scope definition arguments :: scopes) := by
  simp [callScope, Scopes.openChild, Scopes.update, openedScope, suppliedDefaults, givenArguments]

/-- The scope of a call binds defaults, evaluated wherever they are met, and arguments, evaluated
where the call stands. -/
theorem mem_openedScope {scopes : Scopes R} {scope : ScopeId}
    {definition : FunctionDefinition R} {arguments : List (String × Expr R)}
    {entry : String × BoundExpr R}
    (member : entry ∈ (openedScope scopes scope definition arguments).bindings) :
    (entry.2.scope = none ∧ (entry.1, entry.2.expr) ∈ definition.defaults) ∨
      (entry.2.scope = some scope ∧ (entry.1, entry.2.expr) ∈ arguments) := by
  rcases Table.mem_update member with supplied | given
  · rcases List.mem_map.mp supplied with ⟨stored, inEffect, rfl⟩
    exact Or.inl ⟨rfl, (List.mem_filter.mp inEffect).1⟩
  · rcases List.mem_map.mp given with ⟨argument, written, rfl⟩
    exact Or.inr ⟨rfl, written⟩

/-- A name in the scope of a call: an argument, a default in effect, or a name from outside. -/
theorem lookup?_openedScope (scopes : Scopes R) (scope : ScopeId)
    (definition : FunctionDefinition R) (arguments : List (String × Expr R)) (name : String) :
    (∃ value, (name, value) ∈ arguments ∧
      Scopes.lookup? (openedScope scopes scope definition arguments :: scopes) scopes.length name =
        some (scopes.length, ⟨value, some scope⟩)) ∨
    (∃ value, (name, value) ∈ definition.defaults ∧ scopes.isBound scope name = false ∧
      Scopes.lookup? (openedScope scopes scope definition arguments :: scopes) scopes.length name =
        some (scopes.length, ⟨value, none⟩)) ∨
    (name ∉ arguments.map Prod.fst ∧
      (name ∈ definition.defaults.keys -> scopes.isBound scope name = true) ∧
      Scopes.lookup? (openedScope scopes scope definition arguments :: scopes) scopes.length name =
        scopes.lookup? scope name) := by
  have inside : (openedScope scopes scope definition arguments).parent = some scope := rfl
  rw [Scopes.lookup?_cons_length inside, openedScope]
  dsimp only
  rcases Table.get?_update_cases (suppliedDefaults scopes scope definition)
    (givenArguments scope arguments) name with ⟨absent, kept⟩ | ⟨bound, member, found⟩
  · rw [kept]
    have noArgument : name ∉ arguments.map Prod.fst := by
      simpa [givenArguments, Table.keys] using absent
    cases supplied : (suppliedDefaults scopes scope definition).get? name with
    | none =>
        refine Or.inr (Or.inr ⟨noArgument, ?_, rfl⟩)
        intro isDefault
        rcases List.mem_map.mp isDefault with ⟨entry, member, rfl⟩
        cases free : scopes.isBound scope entry.1 with
        | true => rfl
        | false =>
            refine absurd ?_ ((Table.get?_eq_none_iff _ _).mp supplied)
            refine List.mem_map.mpr ⟨(entry.1, ⟨entry.2, none⟩), ?_, rfl⟩
            exact List.mem_map.mpr ⟨entry, List.mem_filter.mpr ⟨member, by rw [free]; rfl⟩, rfl⟩
    | some bound =>
        rcases List.mem_map.mp (Table.mem_of_get? supplied) with ⟨entry, member, same⟩
        cases same
        rcases List.mem_filter.mp member with ⟨isDefault, free⟩
        exact Or.inr (Or.inl ⟨entry.2, isDefault, by simpa using free, rfl⟩)
  · simp only [found]
    rcases List.mem_map.mp member with ⟨entry, isArgument, same⟩
    cases same
    exact Or.inl ⟨entry.2, isArgument, rfl⟩

end QuantityCalculus
