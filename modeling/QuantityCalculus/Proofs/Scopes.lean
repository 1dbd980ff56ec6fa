import QuantityCalculus.Scope

namespace QuantityCalculus

/-!
# Scopes by their places

A scope keeps its place when others are added or changed.
-/

variable {R : Type}

namespace Scopes

variable {scopes : Scopes R} {id : ScopeId}

theorem scope?_cons (id : ScopeId) (newest : Scope R) (older : Scopes R) :
    Scopes.scope? id (newest :: older) =
      if id = older.length then some newest else older.scope? id :=
  rfl

theorem update_cons (id : ScopeId) (change : Scope R -> Scope R) (newest : Scope R)
    (older : Scopes R) :
    Scopes.update id change (newest :: older) =
      if id = older.length then change newest :: older
      else newest :: older.update id change :=
  rfl

theorem length_update (id : ScopeId) (change : Scope R -> Scope R) (scopes : Scopes R) :
    (scopes.update id change).length = scopes.length := by
  induction scopes with
  | nil => rfl
  | cons scope older inductionHypothesis =>
      rw [update_cons]
      split
      · rfl
      · rw [List.length_cons, inductionHypothesis, List.length_cons]

theorem scope?_update (id : ScopeId) (change : Scope R -> Scope R) (scopes : Scopes R)
    (other : ScopeId) :
    (scopes.update id change).scope? other =
      (scopes.scope? other).map fun scope => if other = id then change scope else scope := by
  induction scopes with
  | nil => rfl
  | cons scope older inductionHypothesis =>
      rw [update_cons]
      by_cases here : id = older.length
      · rw [if_pos here, scope?_cons, scope?_cons]
        by_cases there : other = older.length
        · rw [if_pos there, if_pos there, Option.map_some, if_pos (there.trans here.symm)]
        · rw [if_neg there, if_neg there]
          have elsewhere : other ≠ id := fun same => there (same.trans here)
          simp only [if_neg elsewhere, Option.map_id']
      · rw [if_neg here, scope?_cons, scope?_cons, length_update]
        by_cases there : other = older.length
        · have elsewhere : other ≠ id := fun same => here (same.symm.trans there)
          rw [if_pos there, if_pos there, Option.map_some, if_neg elsewhere]
        · rw [if_neg there, if_neg there, inductionHypothesis]

/-- A scope after a change of one of them was there, or was changed. -/
theorem mem_update {change : Scope R -> Scope R} {scope : Scope R}
    (member : scope ∈ scopes.update id change) :
    scope ∈ scopes ∨ ∃ old, old ∈ scopes ∧ scope = change old := by
  induction scopes with
  | nil => exact Or.inl member
  | cons newest older inductionHypothesis =>
      rw [update_cons] at member
      split at member
      · rcases List.mem_cons.mp member with same | further
        · exact Or.inr ⟨newest, List.mem_cons_self, same⟩
        · exact Or.inl (List.mem_cons_of_mem _ further)
      · rcases List.mem_cons.mp member with same | further
        · exact Or.inl (List.mem_cons.mpr (Or.inl same))
        · rcases inductionHypothesis further with there | ⟨old, there, same⟩
          · exact Or.inl (List.mem_cons_of_mem _ there)
          · exact Or.inr ⟨old, List.mem_cons_of_mem _ there, same⟩

theorem scope?_cons_of_lt {new : Scope R} (older : id < scopes.length) :
    Scopes.scope? id (new :: scopes) = scopes.scope? id := by
  rw [scope?_cons, if_neg (Nat.ne_of_lt older)]

theorem scope?_cons_length {new : Scope R} :
    Scopes.scope? scopes.length (new :: scopes) = some new := by
  rw [scope?_cons, if_pos rfl]

theorem lt_of_scope? {scope : Scope R} (found : scopes.scope? id = some scope) :
    id < scopes.length := by
  induction scopes with
  | nil => cases found
  | cons new older inductionHypothesis =>
      rw [scope?_cons] at found
      split at found
      · rename_i here
        exact Nat.lt_succ_of_le (Nat.le_of_eq here)
      · exact Nat.lt_succ_of_lt (inductionHypothesis found)

theorem mem_of_scope? {scope : Scope R} (found : scopes.scope? id = some scope) :
    scope ∈ scopes := by
  induction scopes with
  | nil => cases found
  | cons new older inductionHypothesis =>
      rw [scope?_cons] at found
      split at found
      · cases found
        exact List.mem_cons_self
      · exact List.mem_cons_of_mem _ (inductionHypothesis found)

theorem exists_scope?_of_lt (there : id < scopes.length) :
    ∃ scope, scopes.scope? id = some scope := by
  induction scopes with
  | nil => exact absurd there (Nat.not_lt_zero id)
  | cons newest older inductionHypothesis =>
      rw [scope?_cons]
      split
      · exact ⟨newest, rfl⟩
      · rename_i earlier
        exact inductionHypothesis (Nat.lt_of_le_of_ne (Nat.le_of_lt_succ there) earlier)

/-! ## Enabled catalogs -/

theorem mem_enabledIn {name : String} :
    name ∈ scopes.enabledIn id <->
      ∃ scope, scopes.scope? id = some scope ∧ name ∈ scope.enabled := by
  rw [enabledIn]
  cases scopes.scope? id <;> simp

theorem mem_withName {name other : String} {names : List String} :
    other ∈ withName name names <-> other = name ∨ other ∈ names := by
  rw [withName]
  split
  · rename_i there
    rw [List.contains_iff_mem] at there
    exact ⟨Or.inr, fun either => either.elim (fun same => same ▸ there) id⟩
  · rw [List.mem_append, List.mem_singleton]
    exact Or.comm

theorem mem_enabledIn_enable (there : id < scopes.length) (name : String) :
    name ∈ (scopes.enable id name).enabledIn id := by
  rcases exists_scope?_of_lt there with ⟨scope, found⟩
  refine mem_enabledIn.mpr ⟨_, (scope?_update id _ scopes id).trans
    (congrArg (Option.map _) found), ?_⟩
  simp only [if_true]
  exact mem_withName.mpr (Or.inl rfl)

/-- A catalog is enabled in the scope it was enabled in, if that is there, and where it was. -/
theorem mem_enabledIn_enable_iff {other : ScopeId} {name : String}
    (there : id < scopes.length) :
    name ∈ (scopes.enable id name).enabledIn other <->
      other = id ∨ name ∈ scopes.enabledIn other := by
  by_cases here : other = id
  · subst here
    exact iff_of_true (mem_enabledIn_enable there name) (Or.inl rfl)
  · have same : (scopes.enable id name).enabledIn other = scopes.enabledIn other := by
      rw [enable, enabledIn, scope?_update, enabledIn]
      simp only [if_neg here, Option.map_id']
    rw [same, or_iff_right here]

/-!
## The expressions that scopes were opened for

A scope is met under its place whatever becomes of the others, and no change of a scope
gives it to another expression.
-/

theorem lt_of_ownerOf? (owned : (scopes.ownerOf? id).isSome) : id < scopes.length := by
  cases found : scopes.scope? id with
  | none =>
      rw [ownerOf?, found] at owned
      cases owned
  | some scope => exact lt_of_scope? found

/-- No scope goes away, and each still belongs to the same expression. -/
structure KeepsOwners (before after : Scopes R) : Prop where
  length : before.length ≤ after.length
  owners : forall id, id < before.length -> after.ownerOf? id = before.ownerOf? id

theorem KeepsOwners.refl (scopes : Scopes R) : KeepsOwners scopes scopes :=
  ⟨Nat.le_refl _, fun _ _ => rfl⟩

theorem KeepsOwners.trans {first second third : Scopes R} (one : KeepsOwners first second)
    (two : KeepsOwners second third) : KeepsOwners first third where
  length := Nat.le_trans one.length two.length
  owners := fun id old =>
    (two.owners id (Nat.lt_of_lt_of_le old one.length)).trans (one.owners id old)

theorem keepsOwners_update (id : ScopeId) {change : Scope R -> Scope R}
    (keeps : forall scope, (change scope).owner = scope.owner) (scopes : Scopes R) :
    KeepsOwners scopes (scopes.update id change) where
  length := Nat.le_of_eq (length_update id change scopes).symm
  owners := by
    intro other _
    rw [ownerOf?, scope?_update, ownerOf?]
    cases scopes.scope? other with
    | none => rfl
    | some scope =>
        rw [Option.map_some, Option.bind_some, Option.bind_some]
        split
        · exact keeps scope
        · rfl

theorem keepsOwners_openChild (scopes : Scopes R) (parent : ScopeId) (owner : Option (Expr R)) :
    KeepsOwners scopes (scopes.openChild parent owner).2 where
  length := Nat.le_succ _
  owners := by
    intro id old
    rw [ownerOf?, openChild, scope?_cons_of_lt old, ownerOf?]

theorem ownerOf?_openChild (scopes : Scopes R) (parent : ScopeId) (owner : Expr R) :
    (scopes.openChild parent (some owner)).2.ownerOf? (scopes.openChild parent (some owner)).1 =
      some owner := by
  rw [ownerOf?, openChild, scope?_cons_length]
  rfl

theorem keepsOwners_bind (id : ScopeId) (name : String) (expr : Expr R) (scopes : Scopes R) :
    KeepsOwners scopes (scopes.bind id name expr none) :=
  keepsOwners_update id (by exact fun _ => rfl) scopes

theorem keepsOwners_foldl {α : Type} {change : Scopes R -> α -> Scopes R}
    (keeps : forall scopes item, KeepsOwners scopes (change scopes item)) (items : List α)
    (scopes : Scopes R) : KeepsOwners scopes (items.foldl change scopes) := by
  induction items generalizing scopes with
  | nil => exact .refl scopes
  | cons first rest inductionHypothesis =>
      exact (keeps scopes first).trans (inductionHypothesis (change scopes first))

end Scopes
end QuantityCalculus
