import QuantityCalculus.Proofs.Session.Stack
import QuantityCalculus.Proofs.Storage.Reopening

namespace QuantityCalculus

/-!
# Settings after a restart

The settings are kept by the lines that change them on purpose: `mode`, `disable`, `enable`
and the end of the session.  Two others enable catalogs without keeping the settings.  A unit
that is defined enables its catalog, and so does an `enable` that fails at a later name.  A
session that starts again therefore has the angle mode of the last one, and of its enabled
catalogs those that were enabled when the settings were last kept.  A session that never
kept its settings has all its catalogs enabled, and so has the one after it.
-/

variable {R : Type}

/-! ## Enabled catalogs -/

namespace Scopes

/-- No scope goes away, and none has fewer catalogs enabled. -/
structure KeepsEnabled (before after : Scopes R) : Prop where
  length : before.length <= after.length
  enabled : forall id name, name ∈ before.enabledIn id -> name ∈ after.enabledIn id

theorem KeepsEnabled.refl (scopes : Scopes R) : KeepsEnabled scopes scopes :=
  ⟨Nat.le_refl _, fun _ _ => id⟩

theorem KeepsEnabled.trans {first second third : Scopes R} (one : KeepsEnabled first second)
    (two : KeepsEnabled second third) : KeepsEnabled first third where
  length := Nat.le_trans one.length two.length
  enabled := fun id name member => two.enabled id name (one.enabled id name member)

theorem keepsEnabled_update (id : ScopeId) {change : Scope R -> Scope R}
    (keeps : forall scope name, name ∈ scope.enabled -> name ∈ (change scope).enabled)
    (scopes : Scopes R) : KeepsEnabled scopes (scopes.update id change) where
  length := Nat.le_of_eq (length_update id change scopes).symm
  enabled := by
    intro other name member
    rcases mem_enabledIn.mp member with ⟨scope, found, enabled⟩
    refine mem_enabledIn.mpr ⟨_, (scope?_update id change scopes other).trans
      (congrArg (Option.map _) found), ?_⟩
    split
    · exact keeps scope name enabled
    · exact enabled

theorem keepsEnabled_openChild (scopes : Scopes R) (parent : ScopeId) (owner : Option (Expr R)) :
    KeepsEnabled scopes (scopes.openChild parent owner).2 where
  length := Nat.le_succ _
  enabled := by
    intro id name member
    rcases mem_enabledIn.mp member with ⟨scope, found, enabled⟩
    exact mem_enabledIn.mpr ⟨scope, (scope?_cons_of_lt (lt_of_scope? found)).trans found, enabled⟩

theorem keepsEnabled_enable (id : ScopeId) (name : String) (scopes : Scopes R) :
    KeepsEnabled scopes (scopes.enable id name) :=
  keepsEnabled_update id (fun _ _ member => mem_withName.mpr (Or.inr member)) scopes

end Scopes

/-! ## Lines -/

namespace Session

variable [Scalar R]

/-- Angles are counted as before, and no scope has fewer catalogs enabled. -/
structure Steady (before after : Session R) : Prop where
  scopes : Scopes.KeepsEnabled before.scopes after.scopes
  angleMode : after.environment.angleMode = before.environment.angleMode

section

variable {line : Line} {before after : Session R}

theorem Change.steady (change : Change line before after) : Steady before after := by
  cases change with
  | remembered scope quantity =>
      refine ⟨Scopes.keepsEnabled_update _ (fun found name => ?_) _, rfl⟩
      split <;> exact id
  | opened parent owner => exact ⟨Scopes.keepsEnabled_openChild _ _ _, rfl⟩
  | bound | clearedBindings | clearedMemory =>
      exact ⟨Scopes.keepsEnabled_update _ (by exact fun _ _ => id) _, rfl⟩
  | enabled scope name => exact ⟨Scopes.keepsEnabled_enable _ _ _, rfl⟩
  | unit _ _ _ scope =>
      exact ⟨(Scopes.keepsEnabled_enable _ _ _).trans (Scopes.keepsEnabled_enable _ _ _), rfl⟩
  | _ => exact ⟨.refl _, rfl⟩

/-- A new catalog is enabled in the base. -/
theorem Change.enables (change : Change line before after) (there : base < before.scopes.length)
    {name : String} (member : name ∈ after.environment.registry.catalogs.keys) :
    name ∈ before.environment.registry.catalogs.keys ∨ name ∈ after.scopes.enabledIn base := by
  cases change with
  | unit _ defined _ scope =>
      rcases (Registry.mem_keys_defineUnit defined).mp member with rfl | old
      · exact Or.inr ((Scopes.keepsEnabled_enable _ _ _).enabled _ _
          (Scopes.mem_enabledIn_enable there _))
      · exact Or.inl old
  | relation defined => exact Or.inl ((Registry.mem_keys_defineRelation defined).mp member)
  | _ => exact Or.inl member

/-- What a session has of the last one to keep its settings.  As long as there is none, all its
catalogs are enabled. -/
structure Recalls (options : SessionOptions) (settled : Option (Session R)) (session : Session R) :
    Prop where
  there : base < session.scopes.length
  angleMode : session.environment.angleMode =
    (settled.map fun kept => kept.environment.angleMode).getD (options.angleMode.getD .deg)
  enabled : forall kept, settled = some kept -> forall name,
    name ∈ kept.scopes.enabledIn base -> name ∈ session.scopes.enabledIn base
  everything : settled = none -> forall name,
    name ∈ session.environment.registry.catalogs.keys -> name ∈ session.scopes.enabledIn base

variable {options : SessionOptions} {settled : Option (Session R)}

theorem Change.recalls (change : Change line before after)
    (recalls : before.Recalls options settled) : after.Recalls options settled where
  there := Nat.lt_of_lt_of_le recalls.there change.steady.scopes.length
  angleMode := change.steady.angleMode.trans recalls.angleMode
  enabled := fun kept same name member =>
    change.steady.scopes.enabled _ _ (recalls.enabled kept same name member)
  everything := by
    intro none name member
    rcases change.enables recalls.there member with old | enabled
    · exact change.steady.scopes.enabled _ _ (recalls.everything none name old)
    · exact enabled

omit [Scalar R] in
/-- A session that has just kept its settings recalls them. -/
theorem recalls_self {session : Session R} (there : base < session.scopes.length) :
    session.Recalls options (some session) where
  there := there
  angleMode := rfl
  enabled := by
    rintro kept same name member
    cases same
    exact member
  everything := nofun

theorem Passes.recalls (passes : Passes line before after)
    (recalls : before.Recalls options settled) :
    after.Recalls options (if line.settles before then some after else settled) := by
  have changes : forall {after : Session R}, Changes line before after ->
      after.Recalls options settled :=
    fun changed => changed.preserves (fun change => change.recalls) recalls
  cases passes with
  | aims unsettled name same =>
      rw [unsettled, same]
      exact ⟨recalls.there, recalls.angleMode, recalls.enabled, recalls.everything⟩
  | changes unsettled changed =>
      rw [unsettled]
      exact changes changed
  | settles settled changed settling =>
      rw [settled]
      exact recalls_self (Nat.lt_of_lt_of_le (changes changed).there settling.keepsOwners.length)

theorem recalls_start {session : Session R}
    (started : Session.start options (some []) = .ok session) : session.Recalls options none := by
  rcases start_eq_ok.mp started with ⟨parts, ⟨settings, _, _, _, mode, enabled⟩, rfl⟩
  have initial : StoredSettings.initial = parts.settings := Except.ok.inj settings
  rw [← initial] at mode enabled
  refine ⟨Nat.one_pos, ?_, nofun, fun _ name member => ?_⟩
  · rw [StoredSettings.startingMode_eq StoredSettings.angleModeOf_initial] at mode
    exact (Except.ok.inj mode).symm
  · have all : _ = parts.enabled :=
      Except.ok.inj ((StoredSettings.enabledAmong_initial _).symm.trans enabled)
    change name ∈ parts.enabled
    rw [← all]
    exact member

end

/-! ## Restarts -/

theorem Filed.restarts {options : SessionOptions} {builtIn : Registry R}
    {settled : Option (Session R)} {session : Session R}
    (filed : session.Filed options builtIn settled) (recalls : session.Recalls options settled) :
    ∃ next : Session R, Session.start options session.files = .ok next ∧
      next.environment.angleMode = options.angleMode.getD session.environment.angleMode ∧
      forall name, name ∈ next.enabledIn base <->
        name ∈ next.environment.registry.catalogs.keys ∧ name ∈ session.enabledIn base ∧
          forall kept, settled = some kept -> name ∈ kept.enabledIn base := by
  rcases filed.exists_start with ⟨next, again⟩
  rcases start_eq_ok.mp again with ⟨parts, ⟨settings, _, _, _, mode, enabled⟩, rfl⟩
  have same : settingsOf settled = parts.settings :=
    Except.ok.inj (filed.loadSettings.symm.trans settings)
  rw [← same] at mode enabled
  refine ⟨_, again, ?_, fun name => ?_⟩
  · rw [StoredSettings.startingMode_eq (angleModeOf_settingsOf settled)] at mode
    refine (Except.ok.inj mode).symm.trans ?_
    rw [recalls.angleMode]
    cases options.angleMode with
    | some asked => rfl
    | none => rfl
  · simp only [Session.enabledIn, Text.mem_sortedNames]
    have listed : (parts.session options session.files).scopes.enabledIn base = parts.enabled :=
      rfl
    rw [listed]
    cases settled with
    | none =>
        have all := Except.ok.inj ((StoredSettings.enabledAmong_initial _).symm.trans enabled)
        rw [← all]
        constructor
        · intro member
          refine ⟨member, recalls.everything rfl name (filed.catalogs_of_start again member), ?_⟩
          intro kept some
          cases some
        · exact And.left
    | some kept =>
        have some := Except.ok.inj ((StoredSettings.enabledAmong_kept _ _ _ _).symm.trans enabled)
        rw [← some, List.mem_filter, List.contains_iff_mem, Session.enabledIn, Text.mem_sortedNames]
        constructor
        · rintro ⟨member, recalled⟩
          refine ⟨member, recalls.enabled kept rfl name recalled, ?_⟩
          rintro other same
          cases same
          exact recalled
        · rintro ⟨member, _, each⟩
          exact ⟨member, each kept rfl⟩

/-- A session that is started again counts angles as before, and of its catalogs those are
enabled that were enabled before, and were so when the settings were last kept. -/
theorem settings_survive_restart {options : SessionOptions} {first : Session R}
    (started : Session.start options (some []) = .ok first) {inputs : List String}
    (unslashed : (first.afterLines inputs).Unslashed) :
    let session := first.afterLines inputs
    ∃ next : Session R, Session.start options session.files = .ok next ∧
      next.environment.angleMode = options.angleMode.getD session.environment.angleMode ∧
      forall name, name ∈ next.enabledIn base <->
        name ∈ next.environment.registry.catalogs.keys ∧ name ∈ session.enabledIn base ∧
          forall kept, settledAfter none first inputs = some kept ->
            name ∈ kept.enabledIn base := by
  rcases filed_of_start started with ⟨builtIn, begun⟩
  refine (begun.afterLines unslashed).restarts ?_
  exact preserves_settledAfter
    (motive := fun settled (session : Session R) => session.Recalls options settled)
    (fun settled session input recalls => (passes_execute session input).recalls recalls)
    (recalls_start started) inputs

/-- Radians are kept, and so is a catalog that is enabled by name after it was made. -/
theorem settings_survive_restart_radians :
    ∃ first : Session Float, Session.start ⟨none, 15, true⟩ (some []) = .ok first ∧
      let session := first.afterLines ["disable electric", "unit t a", "enable t", "mode rad"]
      session.Unslashed ∧ session.environment.angleMode = .rad ∧ session.enabledIn base = ["t"] ∧
        ∃ next : Session Float, Session.start ⟨none, 15, true⟩ session.files = .ok next ∧
          next.environment.angleMode = .rad ∧
          ("t" ∈ next.enabledIn base <-> "t" ∈ next.environment.registry.catalogs.keys) := by
  have facts : ((start ⟨none, 15, true⟩ (some []) : Except LoadFault (Session Float)).toOption.any
      fun first =>
        let session := first.afterLines ["disable electric", "unit t a", "enable t", "mode rad"]
        decide (session.Unslashed ∧ session.environment.angleMode = .rad ∧
          session.enabledIn base = ["t"] ∧
          ((settledAfter none first
            ["disable electric", "unit t a", "enable t", "mode rad"]).all fun kept =>
              kept.enabledIn base = ["t"]) = true)) = true := by
    decide +kernel
  rcases (Option.any_eq_true _ _).mp facts with ⟨first, known, both⟩
  rcases of_decide_eq_true both with ⟨unslashed, radians, enabled, settled⟩
  have started := eq_ok_of_toOption known
  rcases settings_survive_restart started unslashed with ⟨next, again, mode, same⟩
  refine ⟨first, started, unslashed, radians, enabled, next, again, mode.trans radians, ?_⟩
  rw [same]
  refine ⟨And.left, fun member => ⟨member, ?_, fun kept found => ?_⟩⟩
  · rw [enabled]
    exact List.mem_singleton_self _
  · rw [found, Option.all_some, decide_eq_true_iff] at settled
    rw [settled]
    exact List.mem_singleton_self _

/-- A catalog that is made by defining its first unit is enabled without the settings being kept.
It is there after a restart, and no longer enabled. -/
theorem settings_lost_by_restart :
    ∃ first next : Session Float, Session.start ⟨none, 15, true⟩ (some []) = .ok first ∧
      let session := first.afterLines ["disable electric", "unit t a"]
      Session.start ⟨none, 15, true⟩ session.files = .ok next ∧
        "t" ∈ session.enabledIn base ∧ "t" ∈ next.environment.registry.catalogs.keys ∧
          "t" ∉ next.enabledIn base := by
  have facts : ((start ⟨none, 15, true⟩ (some []) : Except LoadFault (Session Float)).toOption.any
      fun first =>
        let session := first.afterLines ["disable electric", "unit t a"]
        (start ⟨none, 15, true⟩ session.files : Except LoadFault (Session Float)).toOption.any
          fun next => decide ("t" ∈ session.enabledIn base ∧
            "t" ∈ next.environment.registry.catalogs.keys ∧ "t" ∉ next.enabledIn base)) = true := by
    decide +kernel
  rcases (Option.any_eq_true _ _).mp facts with ⟨first, known, lost⟩
  rcases (Option.any_eq_true _ _).mp lost with ⟨next, again, both⟩
  exact ⟨first, next, eq_ok_of_toOption known, eq_ok_of_toOption again, of_decide_eq_true both⟩

end Session
end QuantityCalculus
