import QuantityCalculus.Number.BinaryScalar
import QuantityCalculus.Proofs.Scopes
import QuantityCalculus.Proofs.Session.Steps

namespace QuantityCalculus

/-!
# The scopes of a session

The base lies below all other scopes and belongs to no expression.  Every scope above it
or put aside was opened for an expression, and no scope is in two places at once.  A
target belongs to the scope on top, so it does not outlast a change there.

Every change but the choice of a target moves the session `Onward`: it keeps the order of
the scopes, and either leaves the top and the target as they are or forgets the target.
Unlike the statement about a single line, this passes from one change to the next.
-/

variable {R : Type}

/-! ## The order of the scopes -/

namespace Session

/-- The order that the scopes of a session are kept in. -/
structure Disciplined (session : Session R) : Prop where
  /-- The base is there, and was opened for no expression. -/
  base : Session.base < session.scopes.length ∧ session.ownerOf? Session.base = none
  /-- All other scopes were opened for expressions. -/
  owned : forall scope, scope ∈ session.editing ++ session.stash ->
    (session.ownerOf? scope).isSome
  /-- No scope is in two places. -/
  distinct : (Session.base :: (session.editing ++ session.stash)).Nodup

/-- The order is kept, and a target is kept only together with the scope on top. -/
structure Onward (before after : Session R) : Prop where
  disciplined : before.Disciplined -> after.Disciplined
  target : after.target = none ∨ (after.current = before.current ∧ after.target = before.target)

section

variable {before after : Session R}

theorem Onward.refl (session : Session R) : Onward session session :=
  ⟨id, Or.inr ⟨rfl, rfl⟩⟩

theorem Onward.trans {first second third : Session R} (one : Onward first second)
    (two : Onward second third) : Onward first third where
  disciplined := fun kept => two.disciplined (one.disciplined kept)
  target := by
    rcases two.target with none | ⟨top, target⟩
    · exact Or.inl none
    · rcases one.target with none | ⟨topBefore, targetBefore⟩
      · exact Or.inl (target.trans none)
      · exact Or.inr ⟨top.trans topBefore, target.trans targetBefore⟩

/-- Scopes in places of scopes that were there belong to the same expressions. -/
theorem Disciplined.of_subset (kept : before.Disciplined)
    (owners : Scopes.KeepsOwners before.scopes after.scopes)
    (places : forall scope, scope ∈ after.editing ++ after.stash ->
      scope ∈ before.editing ++ before.stash)
    (distinct : (after.editing ++ after.stash).Nodup) : after.Disciplined where
  base := ⟨Nat.lt_of_lt_of_le kept.base.1 owners.length,
    (owners.owners _ kept.base.1).trans kept.base.2⟩
  owned := by
    intro scope member
    have owned := kept.owned scope (places scope member)
    have same : after.ownerOf? scope = before.ownerOf? scope :=
      owners.owners scope (Scopes.lt_of_ownerOf? owned)
    rw [same]
    exact owned
  distinct := List.nodup_cons.mpr
    ⟨fun member => (List.nodup_cons.mp kept.distinct).1 (places _ member), distinct⟩

/-- Nothing moves. -/
theorem onward_of_same (owners : Scopes.KeepsOwners before.scopes after.scopes)
    (editing : after.editing = before.editing) (stash : after.stash = before.stash)
    (target : after.target = before.target) : Onward before after where
  disciplined := fun kept => by
    refine kept.of_subset owners ?_ ?_
    · rw [editing, stash]
      exact fun _ => id
    · rw [editing, stash]
      exact (List.nodup_cons.mp kept.distinct).2
  target := Or.inr ⟨by rw [current, current, editing], target⟩

/-- A scope that was just opened comes on top. -/
theorem onward_openChild (parent : ScopeId) (owner : Expr R)
    (scopes : after.scopes = (before.scopes.openChild parent (some owner)).2)
    (editing : after.editing = before.scopes.length :: before.editing)
    (stash : after.stash = before.stash) (target : after.target = none) :
    Onward before after where
  disciplined := fun kept => by
    have owners : Scopes.KeepsOwners before.scopes after.scopes := by
      rw [scopes]
      exact Scopes.keepsOwners_openChild before.scopes parent (some owner)
    have old : forall scope, scope ∈ before.editing ++ before.stash ->
        scope < before.scopes.length :=
      fun scope member => Scopes.lt_of_ownerOf? (kept.owned scope member)
    refine ⟨⟨Nat.lt_of_lt_of_le kept.base.1 owners.length,
      (owners.owners _ kept.base.1).trans kept.base.2⟩, ?_, ?_⟩
    · rw [editing, stash, List.cons_append]
      intro scope member
      rcases List.mem_cons.mp member with rfl | earlier
      · rw [ownerOf?, scopes]
        exact Option.isSome_of_eq_some (Scopes.ownerOf?_openChild before.scopes parent owner)
      · have same : after.ownerOf? scope = before.ownerOf? scope :=
          owners.owners scope (old scope earlier)
        rw [same]
        exact kept.owned scope earlier
    · rw [editing, stash, List.cons_append]
      have apart : before.scopes.length ∉ before.editing ++ before.stash :=
        fun member => Nat.lt_irrefl _ (old _ member)
      rcases List.nodup_cons.mp kept.distinct with ⟨notBase, distinct⟩
      refine List.nodup_cons.mpr ⟨fun member => ?_, List.nodup_cons.mpr ⟨apart, distinct⟩⟩
      rcases List.mem_cons.mp member with same | earlier
      · exact Nat.lt_irrefl _ (same ▸ kept.base.1)
      · exact notBase earlier
  target := Or.inl target

/-- Scopes change places among the two lists, and the target is forgotten. -/
theorem onward_of_subset (scopes : after.scopes = before.scopes)
    (places : forall scope, scope ∈ after.editing ++ after.stash ->
      scope ∈ before.editing ++ before.stash)
    (distinct : (before.editing ++ before.stash).Nodup -> (after.editing ++ after.stash).Nodup)
    (target : after.target = none) : Onward before after where
  disciplined := fun kept => by
    refine kept.of_subset ?_ places (distinct (List.nodup_cons.mp kept.distinct).2)
    rw [scopes]
    exact .refl _
  target := Or.inl target

end

/-! ## Lines -/

variable [Scalar R]

omit [Scalar R] in
/-- Changes in the scopes that leave the places and the target as they are. -/
theorem onward_of_scopes {session : Session R} {scopes : Scopes R}
    (owners : Scopes.KeepsOwners session.scopes scopes) : Onward session { session with scopes } :=
  onward_of_same owners rfl rfl rfl

omit [Scalar R] in
theorem onward_emptyStash (session : Session R) : Onward session { session with stash := [] } where
  disciplined := fun kept => by
    refine kept.of_subset (.refl _) (fun scope member => ?_) ?_
    · exact List.mem_append_left _ ((List.append_nil session.editing) ▸ member)
    · change (session.editing ++ []).Nodup
      rw [List.append_nil]
      exact (List.nodup_append.mp (List.nodup_cons.mp kept.distinct).2).1
  target := Or.inr ⟨rfl, rfl⟩

theorem keepsOwners_pushMemory (scope : ScopeId) (quantity : Quantity R) (scopes : Scopes R) :
    Scopes.KeepsOwners scopes (scopes.pushMemory scope quantity) := by
  refine Scopes.keepsOwners_update scope (fun found => ?_) scopes
  split <;> rfl

theorem onward_change {line : Line} {before after : Session R} (change : Change line before after) :
    Onward before after := by
  have sameScopes : forall {after : Session R}, after.scopes = before.scopes ->
      after.editing = before.editing -> after.stash = before.stash ->
      after.target = before.target -> Onward before after :=
    fun scopes => onward_of_same (scopes ▸ .refl _)
  cases change with
  | remembered scope quantity => exact onward_of_scopes (keepsOwners_pushMemory scope quantity _)
  | opened parent owner => exact onward_openChild parent owner rfl rfl rfl rfl
  | bound scope name expr => exact onward_of_scopes (Scopes.keepsOwners_bind scope name expr _)
  | clearedBindings scope =>
      exact onward_of_scopes (Scopes.keepsOwners_update scope (by exact fun _ => rfl) _)
  | clearedMemory scope =>
      exact onward_of_scopes (Scopes.keepsOwners_update scope (by exact fun _ => rfl) _)
  | clearedStash => exact onward_emptyStash before
  | clearedStack =>
      refine onward_of_subset rfl (fun scope member => List.mem_append_right _ member) ?_ rfl
      exact fun distinct => (List.nodup_append.mp distinct).2.1
  | @dropped scope rest top =>
      refine onward_of_subset rfl ?_ ?_ rfl
      · rw [top]
        exact fun _ => List.mem_cons_of_mem scope
      · rw [top]
        exact fun distinct => (List.nodup_cons.mp distinct).2
  | putAside top =>
      refine onward_of_subset rfl ?_ ?_ rfl
      · rw [top]
        exact fun _ => List.perm_middle.mem_iff.mp
      · rw [top]
        exact List.perm_middle.nodup_iff.mpr
  | restored aside =>
      refine onward_of_subset rfl ?_ ?_ rfl
      · rw [aside]
        exact fun _ => List.perm_middle.mem_iff.mpr
      · rw [aside]
        exact List.perm_middle.nodup_iff.mp
  | enabled scope name =>
      exact onward_of_scopes (Scopes.keepsOwners_update scope (by exact fun _ => rfl) _)
  | unit _ _ _ scope =>
      refine onward_of_same ?_ rfl rfl rfl
      exact (Scopes.keepsOwners_update base (by exact fun _ => rfl) before.scopes).trans
        (Scopes.keepsOwners_update scope (by exact fun _ => rfl) _)
  | _ => exact sameScopes rfl rfl rfl rfl

theorem onward_changes {line : Line} {before after : Session R}
    (changed : Changes line before after) : Onward before after :=
  changed.preserves (fun change onward => onward.trans (onward_change change)) (.refl before)

theorem Settling.keepsOwners {before after : Session R} (settling : Settling before after) :
    Scopes.KeepsOwners before.scopes after.scopes := by
  cases settling with
  | disabled names =>
      exact Scopes.keepsOwners_foldl
        (fun scopes _ => Scopes.keepsOwners_update _ (by exact fun _ => rfl) scopes) names _
  | _ => exact .refl _

theorem onward_settling {before after : Session R} (settling : Settling before after) :
    Onward before after := by
  refine onward_of_same settling.keepsOwners ?_ ?_ ?_
  all_goals cases settling <;> rfl

/-- What a line does to the order of the scopes. -/
inductive Moves (before after : Session R) : Prop where
  | onward (kept : Onward before after)
  /-- A target is chosen for the scope on top. -/
  | aims (name : String) (same : after = { before with target := some name })

theorem Passes.moves {line : Line} {before after : Session R} (passes : Passes line before after) :
    Moves before after := by
  cases passes with
  | aims _ name same => exact .aims name same
  | changes _ changed => exact .onward (onward_changes changed)
  | settles _ changed settling =>
      exact .onward ((onward_changes changed).trans (onward_settling settling))

theorem moves_execute (session : Session R) (input : String) :
    Moves session (session.execute input).2 :=
  (passes_execute session input).moves

section

variable {before after : Session R}

omit [Scalar R] in
theorem Moves.disciplined (moved : Moves before after) (kept : before.Disciplined) :
    after.Disciplined := by
  cases moved with
  | onward further => exact further.disciplined kept
  | aims name same =>
      rw [same]
      exact ⟨kept.base, kept.owned, kept.distinct⟩

omit [Scalar R] in
/-- No target outlasts a change of the scope on top. -/
theorem Moves.target (moved : Moves before after) (changed : after.current ≠ before.current) :
    after.target = none := by
  cases moved with
  | onward further => exact further.target.resolve_right fun same => changed same.1
  | aims name same =>
      rw [same] at changed
      exact absurd rfl changed

end

/-! ## All sessions -/

theorem disciplined_start {options : SessionOptions} {files : Option FileTree}
    {session : Session R} (started : start options files = .ok session) : session.Disciplined := by
  rcases fresh_of_start started with ⟨builtIn, fresh⟩
  rcases fresh.base with ⟨enabled, scopes⟩
  constructor
  case base =>
    rw [ownerOf?, scopes]
    exact ⟨Nat.one_pos, rfl⟩
  case owned =>
    rw [fresh.editing, fresh.stash]
    exact nofun
  case distinct =>
    rw [fresh.editing, fresh.stash]
    exact List.nodup_cons.mpr ⟨nofun, List.nodup_nil⟩

theorem disciplined_afterLines {session : Session R} (kept : session.Disciplined)
    (inputs : List String) : (session.afterLines inputs).Disciplined :=
  preserves_afterLines (fun session input _ => (moves_execute session input).disciplined) kept

omit [Scalar R] in
theorem getLast?_stack (session : Session R) : session.stack.getLast? = some session.current := by
  rw [stack, current]
  cases session.editing with
  | nil => rfl
  | cons scope rest =>
      rw [List.reverse_cons, ← List.cons_append, List.getLast?_concat, List.headD_cons]

/-- The discipline of the stack, for every session that was ever started, after any lines. -/
theorem stack_discipline {options : SessionOptions} {files : Option FileTree}
    {first : Session R} (started : start options files = .ok first) (inputs : List String) :
    let session := first.afterLines inputs
    session.stack.head? = some base ∧ session.ownerOf? base = none ∧
      (forall scope, scope ∈ session.stack.tail ++ session.stash ->
        ∃ owner, session.ownerOf? scope = some owner) ∧
      (session.stack ++ session.stash).Nodup ∧ base ∉ session.stash ∧
      forall input, (session.execute input).2.stack.getLast? ≠ session.stack.getLast? ->
        (session.execute input).2.target = none := by
  intro session
  have kept : session.Disciplined := disciplined_afterLines (disciplined_start started) inputs
  have order : (session.stack ++ session.stash).Perm
      (base :: (session.editing ++ session.stash)) :=
    ((List.reverse_perm session.editing).append_right session.stash).cons base
  refine ⟨rfl, kept.base.2, fun scope member => ?_, order.nodup_iff.mpr kept.distinct, ?_, ?_⟩
  · refine Option.isSome_iff_exists.mp (kept.owned scope ?_)
    rcases List.mem_append.mp member with above | aside
    · exact List.mem_append_left _ (List.mem_reverse.mp above)
    · exact List.mem_append_right _ aside
  · exact fun aside => (List.nodup_cons.mp kept.distinct).1 (List.mem_append_right _ aside)
  · intro input changed
    refine (moves_execute session input).target fun same => changed ?_
    rw [getLast?_stack, getLast?_stack, same]

/-- A session without files, in which a target is chosen before the scope on top is put aside. -/
theorem stack_discipline_aside :
    ∃ first : Session Float, start ⟨none, 15, true⟩ none = .ok first ∧
      let session := first.afterLines ["a*b", "a = 2", "@b"]
      (session.stack ++ session.stash).Nodup ∧
        ((session.execute "stash").2.stack.getLast? ≠ session.stack.getLast? ->
          (session.execute "stash").2.target = none) := by
  rcases Option.isSome_iff_exists.mp (by decide +kernel :
    (start ⟨none, 15, true⟩ none : Except LoadFault (Session Float)).toOption.isSome) with
    ⟨first, known⟩
  have started := eq_ok_of_toOption known
  rcases stack_discipline started ["a*b", "a = 2", "@b"] with ⟨_, _, _, distinct, _, targets⟩
  exact ⟨first, started, distinct, targets "stash"⟩

end Session
end QuantityCalculus
