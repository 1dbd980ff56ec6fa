import QuantityCalculus.Proofs.Evaluation.PairedScopes
import QuantityCalculus.Proofs.Session.Stack

namespace QuantityCalculus

/-!
# Saved functions do what was edited

An expression is edited in a scope of its own.  When it is saved, what is bound there
becomes the defaults of the function, and a call from the base binds them again in a scope
inside the base.  The two scopes bind the same names to the same expressions, so the call
and the edited expression have the same outcome.

The message of a failure may still tell them apart.  A function that calls itself is
reported with all functions that are under way, and inside the call one more is.
-/

variable {R : Type} [Scalar R]

/-! ## Bindings of a session -/

/-- No binding fixes the scope in which its expression is evaluated. -/
def Scopes.Unfixed (scopes : Scopes R) : Prop :=
  forall scope, scope ∈ scopes -> forall binding, binding ∈ scope.bindings ->
    binding.2.scope = none

section

variable {scopes : Scopes R}

omit [Scalar R] in
theorem Scopes.Unfixed.update (unfixed : scopes.Unfixed) {id : ScopeId}
    {change : Scope R -> Scope R}
    (keeps : forall scope binding, binding ∈ (change scope).bindings ->
      binding ∈ scope.bindings ∨ binding.2.scope = none) : (scopes.update id change).Unfixed := by
  intro scope listed binding member
  rcases mem_update listed with there | ⟨old, there, rfl⟩
  · exact unfixed scope there binding member
  · exact (keeps old binding member).elim (unfixed old there binding) fun same => same

omit [Scalar R] in
theorem Scopes.Unfixed.enable (unfixed : scopes.Unfixed) (id : ScopeId) (name : String) :
    (scopes.enable id name).Unfixed :=
  unfixed.update fun _ _ => Or.inl

omit [Scalar R] in
theorem Scopes.Unfixed.disableAll (unfixed : scopes.Unfixed) (id : ScopeId)
    (names : List String) :
    (names.foldl (fun scopes name => scopes.disable id name) scopes).Unfixed := by
  induction names generalizing scopes with
  | nil => exact unfixed
  | cons name rest inductionHypothesis =>
      exact inductionHypothesis (unfixed.update fun _ _ => Or.inl)

end

namespace Session

/-- Whatever a line binds is evaluated where it is looked up. -/
theorem unfixed_passes {line : Line} {before after : Session R}
    (passes : Passes line before after) (unfixed : before.scopes.Unfixed) :
    after.scopes.Unfixed := by
  refine passes.preserves (motive := fun session : Session R => session.scopes.Unfixed)
    ?_ ?_ (fun _ => id) unfixed
  · intro before after change unfixed
    cases change with
    | remembered scope quantity =>
        refine unfixed.update fun found binding member => Or.inl ?_
        split at member <;> exact member
    | opened parent owner =>
        intro scope listed binding member
        rcases List.mem_cons.mp listed with rfl | older
        · cases member
        · exact unfixed scope older binding member
    | bound scope name expr =>
        refine unfixed.update fun found binding member => (Table.mem_set member).imp_right ?_
        rintro rfl
        rfl
    | clearedBindings scope => exact unfixed.update fun _ _ => nofun
    | clearedMemory scope => exact unfixed.update fun _ _ => Or.inl
    | enabled scope name => exact unfixed.enable scope name
    | unit _ _ _ scope => exact (unfixed.enable base _).enable scope _
    | _ => exact unfixed
  · intro before after settling unfixed
    cases settling with
    | disabled names => exact unfixed.disableAll _ names
    | _ => exact unfixed

theorem unfixed_afterLines {options : SessionOptions} {files : Option FileTree}
    {first : Session R} (started : start options files = .ok first) (inputs : List String) :
    (first.afterLines inputs).scopes.Unfixed := by
  refine preserves_afterLines (motive := fun session : Session R => session.scopes.Unfixed)
    (fun session input _ unfixed => ?_) ?_
  · exact unfixed_passes (passes_execute session input) unfixed
  · rcases fresh_of_start started with ⟨builtIn, fresh⟩
    rcases fresh.base with ⟨enabled, scopes⟩
    rw [scopes]
    intro scope listed
    rw [List.mem_singleton.mp listed]
    exact nofun

/-! ## Saving -/

/-- An expression is edited directly above the base, with the catalogs of the base enabled and with
names of its own that are not bound in the base. -/
structure EditsAboveBase (session : Session R) (expr : Expr R) (own : Scope R) : Prop where
  edited : session.edited = .ok expr
  found : session.scopes.scope? session.current = some own
  inside : own.parent = some base
  unbound : forall name, name ∈ own.bindings.keys -> session.scopes.isBound base name = false
  enabled : forall name, name ∈ own.enabled <-> name ∈ session.scopes.enabledIn base

omit [Scalar R] in
/-- What is being edited is not edited in the base. -/
theorem base_lt_current {session : Session R} {expr : Expr R} (kept : session.Disciplined)
    (edited : session.edited = .ok expr) : base < session.current := by
  refine Nat.pos_of_ne_zero fun same => ?_
  rw [Session.edited] at edited
  cases places : session.editing with
  | nil =>
      rw [isEditing, places] at edited
      cases edited
  | cons scope rest =>
      have top : session.current = scope := by rw [current, places, List.headD_cons]
      have distinct := (List.nodup_cons.mp kept.distinct).1
      refine distinct (List.mem_append_left _ ?_)
      rw [places, base, ← same, top]
      exact List.mem_cons_self

omit [Scalar R] in
theorem EditsAboveBase.innerScope {session : Session R} {expr : Expr R} {own : Scope R}
    (edits : session.EditsAboveBase expr own) (kept : session.Disciplined)
    (unfixed : session.scopes.Unfixed) :
    InnerScope session.scopes session.current base own where
  found := edits.found
  inside := edits.inside
  older := base_lt_current kept edits.edited
  unbound := edits.unbound
  enabled := edits.enabled
  noneFixed := unfixed

/-- Saving stores the expression with what is bound in its scope, and moves nothing. -/
theorem of_run_save {session saved : Session R} {expr : Expr R} {own : Scope R}
    (edits : session.EditsAboveBase expr own) {name : String} {words lines : List String}
    (run : (Line.command .save (name :: words)).run session = (.ok lines, saved)) :
    saved.scopes = session.scopes ∧ saved.current = session.current ∧
      saved.environment.functions.get? name = some (functionOf own expr) := by
  rw [Line.run, Command.run, Action.saveEdited, run_get_bind, run_bind, Action.run_lift,
    edits.edited] at run
  dsimp only at run
  rw [run_bind, Action.run_lift] at run
  cases defined : FunctionStore.define session.environment.functions name
      ⟨expr, (session.scopes.ownBindings session.current).map fun entry =>
        (entry.1, entry.2.expr)⟩ with
  | error failure =>
      rw [defined] at run
      cases run
  | ok functions =>
      rw [defined] at run
      cases run
      refine ⟨rfl, rfl, ?_⟩
      rcases bind_eq_ok.mp defined with ⟨_, _, stored⟩
      cases stored
      change Table.get? name (Table.set name _ _) = _
      rw [Table.get?_set, if_pos rfl, Scopes.ownBindings, edits.found]
      rfl

/-- The expression being edited is saved as a function.  Nothing that the expression leads to calls
that function or reads the memory, and fewer resolutions nest than the call leaves. -/
structure Saves (session : Session R) (name : String) (expr : Expr R) (saved : Session R) :
    Prop where
  edits : ∃ own, session.EditsAboveBase expr own
  run : ∃ words lines, (Line.command .save (name :: words)).run session = (.ok lines, saved)
  keeps : Evaluation.Keeps saved.environment name ⟨[], saved.scopes, saved.current, expr⟩
  enough : evaluateWithin saved.environment (resolutionLimit - 1) [] saved.scopes saved.current
    expr ≠ .error (.resolutionTooDeep resolutionLimit)

/-- A saved function evaluates in the base as the edited expression does in its scope.  A function
that calls itself is reported behind the saved one. -/
theorem saved_call_evaluates {options : SessionOptions} {files : Option FileTree}
    {first : Session R} (started : start options files = .ok first) (inputs : List String)
    {name : String} {expr : Expr R} {saved : Session R}
    (saves : (first.afterLines inputs).Saves name expr saved) :
    evaluate saved.environment saved.scopes base (.call name .nil) =
      (evaluate saved.environment saved.scopes saved.current expr).mapError
        (Failure.calledFrom name) := by
  rcases saves.edits with ⟨own, edits⟩
  rcases saves.run with ⟨words, lines, run⟩
  have inner := edits.innerScope (disciplined_afterLines (disciplined_start started) inputs)
    (unfixed_afterLines started inputs)
  rcases of_run_save edits run with ⟨scopes, current, stored⟩
  rw [← scopes, ← current] at inner
  exact evaluate_call_functionOf inner stored saves.keeps saves.enough

/-! ## Two sessions -/

/-- An outcome that was not cut off. -/
def hasEnded : Except Failure (Quantity R) -> Bool
  | .ok _ => true
  | .error failure => failure ≠ .resolutionTooDeep resolutionLimit

/-- The current scope is directly above the base, as an edited expression that is saved needs it. -/
def isAboveBase (session : Session R) (own : Scope R) : Bool :=
  own.parent = some base ∧ own.enabled = session.scopes.enabledIn base ∧
    own.bindings.keys.all fun key => !session.scopes.isBound base key

/-- The expression being edited and the session after it was saved, if nothing in the session calls
the function or reads the memory. -/
def savedAs? (session : Session R) (name : String) : Option (Expr R × Session R) :=
  match session.edited, session.scopes.scope? session.current,
    (Line.command .save [name]).run session with
  | .ok expr, some own, (.ok _, saved) =>
      if session.isAboveBase own && expr.avoids name && saved.scopes.avoid name &&
          FunctionStore.avoids name saved.environment.functions &&
          hasEnded (evaluateWithin saved.environment (resolutionLimit - 1) [] saved.scopes
            saved.current expr) then
        some (expr, saved)
      else none
  | _, _, _ => none

theorem saves_of_savedAs? {session saved : Session R} {name : String} {expr : Expr R}
    (found : session.savedAs? name = some (expr, saved)) : session.Saves name expr saved := by
  unfold savedAs? at found
  split at found
  · rename_i expr own lines saved edited there run
    split at found
    · rename_i conditions
      cases found
      simp only [Bool.and_eq_true] at conditions
      rcases conditions with ⟨⟨⟨⟨above, written⟩, bound⟩, stored⟩, ended⟩
      rcases of_decide_eq_true above with ⟨inside, enabled, unbound⟩
      constructor
      case edits =>
        refine ⟨own, edited, there, inside, fun key member => ?_, fun key => by rw [enabled]⟩
        exact (Bool.not_eq_true' _).mp (List.all_eq_true.mp unbound key member)
      case run => exact ⟨[], lines, run⟩
      case keeps => exact Evaluation.keeps_of_avoids written bound stored
      case enough =>
        intro cut
        rw [cut, hasEnded, decide_eq_true_iff] at ended
        exact ended rfl
    · cases found
  · cases found

/-- A product with a bound factor, and one that is bound to a sum. -/
theorem saved_call_evaluates_product :
    ∃ (first : Session Float) (expr : Expr Float) (saved : Session Float),
      start ⟨none, 15, true⟩ none = .ok first ∧
      (first.afterLines ["x*y", "x = 3", "y = x+1"]).Saves "f" expr saved ∧
      evaluate saved.environment saved.scopes base (.call "f" .nil) =
        (evaluate saved.environment saved.scopes saved.current expr).mapError
          (Failure.calledFrom "f") := by
  have facts :
      ((start ⟨none, 15, true⟩ none : Except LoadFault (Session Float)).toOption.any fun first =>
        ((first.afterLines ["x*y", "x = 3", "y = x+1"]).savedAs? "f").isSome) = true := by
    decide +kernel
  rcases (Option.any_eq_true _ _).mp facts with ⟨first, known, some⟩
  rcases Option.isSome_iff_exists.mp some with ⟨⟨expr, saved⟩, found⟩
  have started := eq_ok_of_toOption known
  have saves := saves_of_savedAs? found
  exact ⟨first, expr, saved, started, saves, saved_call_evaluates started _ saves⟩

/-- The function `g` calls itself.  In the scope of `y+$g` this is a cycle of `g` alone, and in the
call of `f`, as which it is saved, `f` is reported too. -/
theorem saved_call_reports_itself :
    ∃ (first : Session Float) (expr : Expr Float) (saved : Session Float),
      start ⟨none, 15, true⟩ none = .ok first ∧
      (first.afterLines ["x+$g", "save g", "drop", "y+$g", "x = 1", "y = 1"]).Saves "f" expr
        saved ∧
      evaluate saved.environment saved.scopes saved.current expr =
        .error (.cyclicFunction ["g"] "g") ∧
      evaluate saved.environment saved.scopes base (.call "f" .nil) =
        .error (.cyclicFunction ["f", "g"] "g") := by
  have facts : ((start ⟨none, 15, true⟩ none : Except LoadFault (Session Float)).toOption.any
      fun first => ((first.afterLines
        ["x+$g", "save g", "drop", "y+$g", "x = 1", "y = 1"]).savedAs? "f").any fun found =>
          match evaluate found.2.environment found.2.scopes found.2.current found.1,
            evaluate found.2.environment found.2.scopes base (.call "f" .nil) with
          | .error inScope, .error inCall =>
              inScope = .cyclicFunction ["g"] "g" ∧ inCall = .cyclicFunction ["f", "g"] "g"
          | _, _ => false) = true := by
    decide +kernel
  rcases (Option.any_eq_true _ _).mp facts with ⟨first, known, some⟩
  rcases (Option.any_eq_true _ _).mp some with ⟨⟨expr, saved⟩, found, cyclic⟩
  refine ⟨first, expr, saved, eq_ok_of_toOption known, saves_of_savedAs? found, ?_⟩
  split at cyclic
  · rename_i inScope inCall scope call
    rcases of_decide_eq_true cyclic with ⟨rfl, rfl⟩
    exact ⟨scope, call⟩
  · cases cyclic

end Session
end QuantityCalculus
