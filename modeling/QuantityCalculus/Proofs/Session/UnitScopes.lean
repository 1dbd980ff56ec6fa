import QuantityCalculus.Proofs.Session.Clearing
import QuantityCalculus.Proofs.Storage.SettingsAgain
import QuantityCalculus.Proofs.Units.Labels

namespace QuantityCalculus

/-!
# The scopes that see a new unit

Every scope has a set of enabled catalogs of its own, taken over from its parent when it was
opened.  A unit that is defined enables its catalog in two scopes, the base and the one on
top.  A scope between the two, or one that was put aside, keeps the set it has; if that came
about before the catalog did, the unit cannot be read there, though it can be read both
below and above.

The sets do not change when scopes are given up, put aside or taken up again.  So which
scopes see the unit is settled with the line that defines it.
-/

variable {R : Type}

/-! ## Enabled catalogs -/

namespace Scopes

/-- What a scope remembers is not what it has enabled. -/
theorem enabledIn_pushMemory [Scalar R] (scopes : Scopes R) (id other : ScopeId)
    (quantity : Quantity R) :
    (scopes.pushMemory id quantity).enabledIn other = scopes.enabledIn other := by
  rw [pushMemory, enabledIn, scope?_update, enabledIn]
  cases scopes.scope? other with
  | none => rfl
  | some scope =>
      rw [Option.map_some, Option.map_some, Option.map_some]
      split
      · split <;> rfl
      · rfl

end Scopes

/-! ## Reading the symbol -/

/-- The symbols of an enabled catalog can be read. -/
theorem Registry.resolve_of_enabled {registry : Registry R} {name symbol : String}
    {catalog : Catalog R} {unit : UnitOfMeasure} {enabled : List String}
    (held : registry.catalogs.get? name = some catalog)
    (found : catalog.units.get? symbol = some unit) (here : name ∈ enabled) :
    ∃ reading, registry.resolve symbol enabled = .ok reading := by
  have member : catalog ∈ registry.enabledCatalogs enabled :=
    List.mem_map.mpr ⟨(name, catalog), List.mem_filter.mpr
      ⟨Table.mem_of_get? held, List.contains_iff_mem.mpr here⟩, rfl⟩
  cases read : unitIn? symbol (registry.enabledCatalogs enabled) with
  | none =>
      exact absurd (Table.mem_keys_of_get? found) (unitIn?_eq_none_iff.mp read catalog member)
  | some first => exact ⟨_, resolve_exact read⟩

/-! ## The line that defines a unit -/

variable [Scalar R]

/-- A unit is defined: the catalog is enabled in the base and on top, and nothing moves. -/
theorem Action.of_run_unit {session after : Session R} {name symbol : String}
    {words lines : List String}
    (run : defineUnit (name :: symbol :: words) session = (.ok lines, after)) :
    ∃ unit, session.environment.registry.defineUnit name symbol (phrase words) =
        .ok (unit, after.environment.registry) ∧
      after.scopes = (session.scopes.enable Session.base name).enable session.current name ∧
      after.editing = session.editing ∧ after.stash = session.stash := by
  rw [defineUnit, run_get_bind, run_bind, run_lift] at run
  cases defined : session.environment.registry.defineUnit name symbol (phrase words) with
  | error failure =>
      rw [defined] at run
      cases run
  | ok result =>
      rcases result with ⟨unit, changed⟩
      rcases catalog_defineUnit defined with ⟨catalog, found⟩
      rw [defined] at run
      have entered := run_keepCatalog { session with
        environment := { session.environment with registry := changed }
        scopes := (session.scopes.enable Session.base name).enable session.current name } found
      cases (run_bind_of_ok entered _).symm.trans run
      exact ⟨unit, rfl, rfl, rfl, rfl⟩

/-! ## Lines that only move scopes -/

/-- The line gives up a scope, puts one aside or takes one up again. -/
def Line.movesScopes : Line -> Bool
  | .command .drop _ | .command .stash _ | .command .restore _ => true
  | _ => false

namespace Session

/-- No scope comes into place that was in none, and what is enabled and defined stays. -/
structure Rearranged (before after : Session R) : Prop where
  environment : after.environment = before.environment
  enabled : forall scope, after.scopes.enabledIn scope = before.scopes.enabledIn scope
  places : forall scope, scope ∈ after.editing ++ after.stash ->
    scope ∈ before.editing ++ before.stash

omit [Scalar R] in
theorem Rearranged.refl (session : Session R) : Rearranged session session :=
  ⟨rfl, fun _ => rfl, fun _ => id⟩

omit [Scalar R] in
theorem Rearranged.trans {first second third : Session R} (one : Rearranged first second)
    (two : Rearranged second third) : Rearranged first third where
  environment := two.environment.trans one.environment
  enabled := fun scope => (two.enabled scope).trans (one.enabled scope)
  places := fun scope member => one.places scope (two.places scope member)

end Session

namespace Action

open Session

theorem rearranged_remember (expr : Expr R) (scope : ScopeId) :
    (remember expr scope).Leads Rearranged :=
  Leads.bind .trans ((onlyReads_value expr scope).leads .refl) fun quantity =>
    Leads.bind .trans
      (fun _ => ⟨rfl, fun other => Scopes.enabledIn_pushMemory _ _ other quantity, fun _ => id⟩)
      fun _ => (onlyReads_pure _).leads .refl

theorem rearranged_status : (status : Action R (List String)).Leads Rearranged := by
  refine Leads.get_bind fun _ => Leads.bind .trans ((onlyReads_lift _).leads .refl) fun owner => ?_
  refine Leads.ite ((onlyReads_pure _).leads .refl) ?_
  refine Leads.bind .trans (Leads.get_bind fun _ => ?_) fun _ => (onlyReads_pure _).leads .refl
  split
  · exact Leads.bind .trans (rearranged_remember owner _) fun _ => (onlyReads_pure _).leads .refl
  · exact (onlyReads_pure _).leads .refl

theorem rearranged_dropTop : (dropTop : Action R _).Leads Rearranged := by
  refine Leads.bind .trans (fun session => ?_) fun _ =>
    Leads.get_bind fun _ => (onlyReads_pure _).leads .refl
  rcases run_takeTop session with ⟨failure, run⟩ | ⟨scope, rest, owner, top, run⟩
  · rw [run]
    exact .refl session
  · rw [run]
    refine ⟨rfl, fun _ => rfl, ?_⟩
    rw [top]
    exact fun _ => List.mem_cons_of_mem scope

theorem rearranged_stashTop : (stashTop : Action R _).Leads Rearranged := by
  intro session
  rcases run_takeTop session with ⟨failure, run⟩ | ⟨scope, rest, owner, top, run⟩
  · rw [stashTop, run_bind, run]
    exact .refl session
  · rw [stashTop, run_bind_of_ok run]
    refine ⟨rfl, fun _ => rfl, ?_⟩
    rw [top]
    exact fun _ => List.perm_middle.mem_iff.mp

theorem rearranged_restore : (restore : Action R _).Leads Rearranged := by
  intro session
  rw [restore, run_get_bind]
  cases aside : session.stash with
  | nil => exact .refl session
  | cons scope others =>
      have restored : Rearranged session (session.withRestored scope others) := by
        refine ⟨rfl, fun _ => rfl, ?_⟩
        rw [aside]
        exact fun _ => List.perm_middle.mem_iff.mpr
      exact restored.trans
        (Leads.bind .trans rearranged_status (fun _ => (onlyReads_pure _).leads .refl) _)

end Action

namespace Session

theorem rearranged_execute {session : Session R} {input : String}
    (moves : (Line.ofText (Text.trim input.toList)).movesScopes = true) :
    Rearranged session (session.execute input).2 := by
  rw [execute_snd]
  split
  · exact .refl session
  · generalize Line.ofText (Text.trim input.toList) = line at moves
    unfold Line.movesScopes at moves
    split at moves
    · exact Action.rearranged_dropTop session
    · exact Action.rearranged_stashTop session
    · exact Action.rearranged_restore session
    · cases moves

theorem rearranged_afterLines {session : Session R} {inputs : List String}
    (moves : forall input, input ∈ inputs ->
      (Line.ofText (Text.trim input.toList)).movesScopes = true) :
    Rearranged session (session.afterLines inputs) :=
  preserves_afterLines (motive := Rearranged session)
    (fun _ input member kept => kept.trans (rearranged_execute (moves input member)))
    (.refl session)

omit [Scalar R] in
theorem mem_stack_stash {session : Session R} {scope : ScopeId} :
    scope ∈ session.stack ++ session.stash <->
      scope = base ∨ scope ∈ session.editing ++ session.stash := by
  simp only [stack, List.mem_append, List.mem_cons, List.mem_reverse]
  tauto

omit [Scalar R] in
theorem current_mem (session : Session R) : session.current ∈ session.stack ++ session.stash := by
  rw [mem_stack_stash, current]
  cases session.editing with
  | nil => exact Or.inl rfl
  | cons scope rest => exact Or.inr List.mem_cons_self

omit [Scalar R] in
/-- The scope on top is one of the scopes that were opened. -/
theorem Disciplined.current_lt {session : Session R} (kept : session.Disciplined) :
    session.current < session.scopes.length := by
  rcases mem_stack_stash.mp session.current_mem with isBase | above
  · exact isBase ▸ kept.base.1
  · exact Scopes.lt_of_ownerOf? (kept.owned _ above)

/--
After a unit was defined, in any session that was ever started and after any lines, its catalog
is enabled in the base, in the scope on top and wherever it was enabled before, and in no
other scope on the stack or put aside.  Whatever scopes are then given up, put aside or taken
up again, the symbol can be read as long as one of these scopes is on top.
-/
theorem unit_in_scopes {options : SessionOptions} {files : Option FileTree} {first : Session R}
    (started : start options files = .ok first) (inputs : List String)
    {input catalog symbol : String} {words lines : List String}
    (asks : Line.ofText (Text.trim input.toList) = .command .unit (catalog :: symbol :: words))
    (accepted : ((Line.command .unit (catalog :: symbol :: words)).run
      (first.afterLines inputs)).1 = .ok lines) :
    let before := first.afterLines inputs
    let after := (before.execute input).2
    (before.execute input).1 = lines ∧
      after.stack ++ after.stash = before.stack ++ before.stash ∧
      (forall scope, catalog ∈ after.scopes.enabledIn scope <->
        scope = base ∨ scope = before.current ∨ catalog ∈ before.scopes.enabledIn scope) ∧
      forall moves, (forall move, move ∈ moves ->
          (Line.ofText (Text.trim move.toList)).movesScopes = true) ->
        let later := after.afterLines moves
        later.current ∈ after.stack ++ after.stash ∧
          (forall scope, later.scopes.enabledIn scope = after.scopes.enabledIn scope) ∧
          (later.current = base ∨ later.current = before.current ∨
              catalog ∈ before.scopes.enabledIn later.current ->
            ∃ reading, later.environment.registry.resolve symbol
              (later.scopes.enabledIn later.current) = .ok reading) := by
  intro before after
  have kept : before.Disciplined := disciplined_afterLines (disciplined_start started) inputs
  rcases run : (Line.command .unit (catalog :: symbol :: words)).run before with ⟨result, next⟩
  have result : result = .ok lines := (congrArg Prod.fst run).symm.trans accepted
  rw [result] at run
  have same : before.execute input = (lines, next) := execute_of_run asks run
  have isNext : after = next := congrArg Prod.snd same
  rcases Action.of_run_unit run with ⟨unit, defined, scopes, editing, stash⟩
  rw [← isNext] at defined scopes editing stash
  have enabled : forall scope, catalog ∈ after.scopes.enabledIn scope <->
      scope = base ∨ scope = before.current ∨ catalog ∈ before.scopes.enabledIn scope := by
    intro scope
    rw [scopes, Scopes.mem_enabledIn_enable_iff
        (by rw [Scopes.enable, Scopes.length_update]; exact kept.current_lt),
      Scopes.mem_enabledIn_enable_iff kept.base.1]
    exact or_left_comm
  have places : after.stack ++ after.stash = before.stack ++ before.stash := by
    rw [stack, stack, editing, stash]
  refine ⟨congrArg Prod.fst same, places, enabled, fun moves each => ?_⟩
  have moved : Rearranged after (after.afterLines moves) := rearranged_afterLines each
  refine ⟨?_, moved.enabled, fun sees => ?_⟩
  · exact mem_stack_stash.mpr ((mem_stack_stash.mp (current_mem _)).imp_right (moved.places _))
  · rcases Registry.exists_unit_of_defineUnit defined with ⟨held, known, found⟩
    rw [moved.environment, moved.enabled]
    exact Registry.resolve_of_enabled known found ((enabled _).mpr sees)

/-- A unit defined while an expression is edited can be read when the expression is dropped. -/
theorem unit_in_scopes_below :
    ∃ first : Session Float, start ⟨none, 15, true⟩ none = .ok first ∧
      Line.ofText (Text.trim "unit pack bar".toList) = .command .unit ["pack", "bar"] ∧
      let after := ((first.afterLines ["a*b"]).execute "unit pack bar").2
      let later := after.afterLines ["drop"]
      "pack" ∈ after.scopes.enabledIn base ∧ later.current = base ∧
        ∃ reading, later.environment.registry.resolve "bar"
          (later.scopes.enabledIn later.current) = .ok reading := by
  rcases exists_start_without_files with ⟨first, started⟩
  have asks : Line.ofText (Text.trim "unit pack bar".toList) =
      .command .unit ["pack", "bar"] := by decide +kernel
  have outcome : (start ⟨none, 15, true⟩ none : Except LoadFault (Session Float)).toOption.map
      (fun first => (((Line.command .unit ["pack", "bar"]).run (first.afterLines ["a*b"])).1.toOption,
        (((first.afterLines ["a*b"]).execute "unit pack bar").2.afterLines ["drop"]).current)) =
      some (some ["Defined unit bar (bar) in pack"], base) := by decide +kernel
  rw [started] at outcome
  rcases Prod.mk.inj (Option.some.inj outcome) with ⟨accepted, dropped⟩
  rcases unit_in_scopes started ["a*b"] asks (eq_ok_of_toOption accepted) with
    ⟨_, _, enabled, moving⟩
  rcases moving ["drop"] (by decide +kernel) with ⟨_, _, reads⟩
  exact ⟨first, started, asks, (enabled base).mpr (Or.inl rfl), dropped, reads (Or.inl dropped)⟩

/-- Between the base and the scope on top there can be a scope that does not see a new unit, and
its symbol cannot be read there. -/
theorem unit_unread_between :
    ∃ first : Session Float, start ⟨none, 15, true⟩ none = .ok first ∧
      let before := first.afterLines ["a*b", "c*d"]
      let later := (before.execute "unit pack bar").2.afterLines ["drop"]
      (before.execute "unit pack bar").1 = ["Defined unit bar (bar) in pack"] ∧
        "pack" ∉ later.scopes.enabledIn later.current ∧
        (later.execute "1[bar]").1 = ["Error: Unit bar was not found"] := by
  rcases exists_start_without_files with ⟨first, started⟩
  have outcome : (start ⟨none, 15, true⟩ none : Except LoadFault (Session Float)).toOption.map
      (fun first =>
        let before := first.afterLines ["a*b", "c*d"]
        let later := (before.execute "unit pack bar").2.afterLines ["drop"]
        ((before.execute "unit pack bar").1, later.scopes.enabledIn later.current,
          (later.execute "1[bar]").1)) =
      some (["Defined unit bar (bar) in pack"], ["electric"], ["Error: Unit bar was not found"]) := by
    decide +kernel
  rw [started] at outcome
  rcases Prod.mk.inj (Option.some.inj outcome) with ⟨defined, rest⟩
  rcases Prod.mk.inj rest with ⟨enabled, shown⟩
  refine ⟨first, started, defined, ?_, shown⟩
  rw [enabled]
  decide

end Session
end QuantityCalculus
