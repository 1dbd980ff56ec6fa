import Mathlib.Data.Finset.Basic
import Mathlib.Logic.Function.Iterate
import QuantityCalculus.Number.BinaryScalar
import QuantityCalculus.Proofs.Evaluation.Resolution

namespace QuantityCalculus

/-!
# Evaluation step by step

Evaluation follows names from one expression into the next, in scopes that it opens on the
way, and no expression bounds how far this goes.  What ends it is a counter.

The machine of this module makes that explicit.  It evaluates one node at a time, keeps the
work that is still to be done as a stack of frames, and writes down which resolutions are
under way in a record that it changes in place: it notes a resolution before it goes on with
what the name stands for, and takes it back afterwards, whether that succeeds or fails.
Nothing in its definition bounds the number of its steps.

Each step keeps the record and the frames in agreement, so the record is determined by the
frames.  This bounds the frames of resolutions by the limit of the counter, and it is why the
record is what it was before whenever a resolution has succeeded.  By induction on the
resolutions that the counter still allows, and on the expression at hand, the machine comes
to rest, and with the outcome of the evaluation.
-/

variable {R : Type}

/-! ## The record of what is under way -/

/-- What is noted while names are resolved. -/
structure Noted where
  /-- The variables under way: the scope that holds each, and the scope it is evaluated in. -/
  names : Finset (ScopeId × String × ScopeId)
  /-- The functions under way, outermost first. -/
  functions : List String
  /-- How many resolutions are under way. -/
  depth : Nat

namespace Noted

/-- One more resolution is under way. -/
def add (noted : Noted) : Resolution -> Noted
  | .variable definedIn name evaluatedIn =>
      { noted with
        names := insert (definedIn, name, evaluatedIn) noted.names
        depth := noted.depth + 1 }
  | .function name =>
      { noted with
        functions := noted.functions ++ [name]
        depth := noted.depth + 1 }

/-- A resolution is done. -/
def remove (noted : Noted) : Resolution -> Noted
  | .variable definedIn name evaluatedIn =>
      { noted with
        names := noted.names.erase (definedIn, name, evaluatedIn)
        depth := noted.depth - 1 }
  | .function _ =>
      { noted with
        functions := noted.functions.dropLast
        depth := noted.depth - 1 }

/-- What is noted of a variable. -/
def variableKey : Resolution -> Option (ScopeId × String × ScopeId)
  | .variable definedIn name evaluatedIn => some (definedIn, name, evaluatedIn)
  | .function _ => none

/-- The record of the resolutions of a trail. -/
def of (trail : List Resolution) : Noted :=
  ⟨(trail.filterMap variableKey).toFinset, callers trail, trail.length⟩

variable {trail : List Resolution}

theorem depth_of : (of trail).depth = trail.length :=
  rfl

theorem mem_names {definedIn evaluatedIn : ScopeId} {name : String} :
    (definedIn, name, evaluatedIn) ∈ (of trail).names <->
      .variable definedIn name evaluatedIn ∈ trail := by
  rw [of, List.mem_toFinset, List.mem_filterMap]
  constructor
  · rintro ⟨_ | _, listed, key⟩
    · cases key
      exact listed
    · cases key
  · exact fun listed => ⟨_, listed, rfl⟩

theorem mem_functions {name : String} :
    name ∈ (of trail).functions <-> .function name ∈ trail := by
  rw [of, callers, List.mem_reverse, List.mem_filterMap]
  constructor
  · rintro ⟨_ | _, listed, key⟩
    · cases key
    · cases key
      exact listed
  · exact fun listed => ⟨_, listed, rfl⟩

theorem add_of (resolution : Resolution) :
    (of trail).add resolution = of (resolution :: trail) := by
  cases resolution <;> simp [add, of, callers, variableKey, List.filterMap_cons]

/-- What was not noted before is taken back without a trace. -/
theorem remove_of {resolution : Resolution} (fresh : resolution ∉ trail) :
    (of (resolution :: trail)).remove resolution = of trail := by
  rw [← add_of]
  rcases resolution with ⟨definedIn, name, evaluatedIn⟩ | ⟨name⟩
  · have notNoted : (definedIn, name, evaluatedIn) ∉ (of trail).names :=
      fun noted => fresh (mem_names.mp noted)
    simp [add, remove, Finset.erase_insert notNoted]
  · simp [add, remove]

end Noted

/-! ## The machine -/

/-- What the machine is about to do. -/
inductive Control (R : Type) where
  | evaluating (scopes : Scopes R) (scope : ScopeId) (expr : Expr R)
  | returning (quantity : Quantity R)
  | failing (failure : Failure)

/-- The control that an outcome leads to. -/
def Control.settled : Except Failure (Quantity R) -> Control R
  | .ok quantity => .returning quantity
  | .error failure => .failing failure

/-- What is still to be done with the quantity that comes next. -/
inductive Frame (R : Type) where
  /-- The last operand of a node is being evaluated. -/
  | last (finish : Quantity R -> Except Failure (Quantity R))
  /-- The first of two operands is being evaluated; the second one follows. -/
  | first (scopes : Scopes R) (scope : ScopeId) (second : Expr R)
      (finish : Quantity R -> Quantity R -> Except Failure (Quantity R))
  /-- What a name stands for is being evaluated. -/
  | resolved (resolution : Resolution)

/-- The resolution that a frame belongs to. -/
def Frame.resolution? : Frame R -> Option Resolution
  | .resolved resolution => some resolution
  | .last _ | .first .. => none

/-- The state of an evaluation. -/
structure Machine (R : Type) where
  control : Control R
  frames : List (Frame R)
  noted : Noted

namespace Machine

/-- The machine that is about to evaluate an expression. -/
def start (scopes : Scopes R) (scope : ScopeId) (expr : Expr R) : Machine R :=
  ⟨.evaluating scopes scope expr, [], ⟨∅, [], 0⟩⟩

/-- The resolutions whose expressions are being evaluated, the innermost first. -/
def resolutions (machine : Machine R) : List Resolution :=
  machine.frames.filterMap Frame.resolution?

/-- Goes on with what a name stands for, unless this is too deep. -/
def enter (frames : List (Frame R)) (noted : Noted) (resolution : Resolution)
    (scopes : Scopes R) (scope : ScopeId) (expr : Expr R) : Machine R :=
  if resolutionLimit < (noted.add resolution).depth then
    ⟨.failing (.resolutionTooDeep resolutionLimit), frames, noted.add resolution⟩
  else ⟨.evaluating scopes scope expr, .resolved resolution :: frames, noted.add resolution⟩

variable [Scalar R]

/-- A step at a variable. -/
def visitVariable (environment : Environment R) (frames : List (Frame R)) (noted : Noted)
    (scopes : Scopes R) (scope : ScopeId) (name : String) : Machine R :=
  if isRandomName name then ⟨.settled (environment.random name), frames, noted⟩
  else
    match environment.constants.get? name with
    | some value => ⟨.returning (Quantity.ofScalar value), frames, noted⟩
    | none =>
        match scopes.lookup scope name with
        | .error failure => ⟨.failing failure, frames, noted⟩
        | .ok (definedIn, bound) =>
            let evaluatedIn := bound.scope.getD scope
            if (definedIn, name, evaluatedIn) ∈ noted.names then
              ⟨.failing (.cyclicVariable name), frames, noted⟩
            else
              enter frames noted (.variable definedIn name evaluatedIn) scopes evaluatedIn
                bound.expr

/-- A step at a call. -/
def visitCall (environment : Environment R) (frames : List (Frame R)) (noted : Noted)
    (scopes : Scopes R) (scope : ScopeId) (name : String) (arguments : List (String × Expr R)) :
    Machine R :=
  match environment.functions.get? name with
  | none => ⟨.returning (Quantity.ofScalar Scalar.undefined), frames, noted⟩
  | some definition =>
      if name ∈ noted.functions then
        ⟨.failing (.cyclicFunction noted.functions name), frames, noted⟩
      else
        let (id, opened) := callScope scopes scope definition arguments
        enter frames noted (.function name) opened id definition.body

/-- A step at an expression. -/
def visit (environment : Environment R) (frames : List (Frame R)) (noted : Noted)
    (scopes : Scopes R) (scope : ScopeId) : Expr R -> Machine R
  | .num value => ⟨.returning (Quantity.ofScalar value), frames, noted⟩
  | .var name => visitVariable environment frames noted scopes scope name
  | .mem => ⟨.settled (scopes.memoryAt scope 0), frames, noted⟩
  | .memAt i =>
      onLast i fun quantity => do scopes.memoryAt scope (← memoryIndex quantity)
  | .func kind x => onLast x (environment.function kind)
  | .factorial x => onLast x fun quantity => .ok (factorial quantity)
  | .sqrt x => onLast x fun quantity => .ok (rootOf quantity (Scalar.ofInt 2))
  | .root x i => onFirst x i fun radicand index => .ok (rootOf radicand index.base)
  | .abs x => onLast x fun quantity => .ok { quantity with value := Scalar.abs quantity.value }
  | .fraction x y => onFirst x y (environment.registry.combine .per)
  | .binary op x y => onFirst x y (environment.binary op)
  | .call name arguments => visitCall environment frames noted scopes scope name arguments.toList
  | .paren x => ⟨.evaluating scopes scope x, frames, noted⟩
  | .marked mark x => onLast x (environment.mark (scopes.enabledIn scope) mark)
  | .binding .. => ⟨.failing (.statementEvaluated "Binding"), frames, noted⟩
  | .equation .. => ⟨.failing (.statementEvaluated "Equation"), frames, noted⟩
  | .declaration .. => ⟨.failing (.statementEvaluated "Declaration"), frames, noted⟩
  | .target _ => ⟨.failing (.statementEvaluated "TargetMarker"), frames, noted⟩
where
  onLast (x : Expr R) (finish : Quantity R -> Except Failure (Quantity R)) : Machine R :=
    ⟨.evaluating scopes scope x, .last finish :: frames, noted⟩
  onFirst (x y : Expr R)
      (finish : Quantity R -> Quantity R -> Except Failure (Quantity R)) : Machine R :=
    ⟨.evaluating scopes scope x, .first scopes scope y finish :: frames, noted⟩

/-- One step; a machine without frames that has an outcome is at rest. -/
def step (environment : Environment R) : Machine R -> Machine R
  | ⟨.evaluating scopes scope expr, frames, noted⟩ =>
      visit environment frames noted scopes scope expr
  | ⟨.returning quantity, .last finish :: frames, noted⟩ =>
      ⟨.settled (finish quantity), frames, noted⟩
  | ⟨.returning quantity, .first scopes scope second finish :: frames, noted⟩ =>
      ⟨.evaluating scopes scope second, .last (finish quantity) :: frames, noted⟩
  | ⟨.returning quantity, .resolved resolution :: frames, noted⟩ =>
      ⟨.returning quantity, frames, noted.remove resolution⟩
  | ⟨.failing failure, .resolved resolution :: frames, noted⟩ =>
      ⟨.failing failure, frames, noted.remove resolution⟩
  | ⟨.failing failure, .last _ :: frames, noted⟩ => ⟨.failing failure, frames, noted⟩
  | ⟨.failing failure, .first .. :: frames, noted⟩ => ⟨.failing failure, frames, noted⟩
  | ⟨.returning quantity, [], noted⟩ => ⟨.returning quantity, [], noted⟩
  | ⟨.failing failure, [], noted⟩ => ⟨.failing failure, [], noted⟩

/-! ## What each step keeps -/

variable {environment : Environment R} {machine : Machine R} {frames : List (Frame R)}
  {trail : List Resolution}

/-- The resolutions under way are apart and no more than the limit.  While nothing has failed, they
are what is noted. -/
structure InStep (machine : Machine R) : Prop where
  apart : machine.resolutions.Nodup
  bounded : machine.resolutions.length ≤ resolutionLimit
  noted : (forall failure, machine.control ≠ .failing failure) ->
    machine.noted = .of machine.resolutions

omit [Scalar R] in
theorem inStep_start (scopes : Scopes R) (scope : ScopeId) (expr : Expr R) :
    (start scopes scope expr).InStep where
  apart := List.nodup_nil
  bounded := Nat.zero_le _
  noted := fun _ => rfl

omit [Scalar R] in
/-- Frames without a resolution on them leave everything in step. -/
theorem InStep.of_same {control other : Control R} {otherFrames : List (Frame R)} {noted : Noted}
    (inStep : InStep ⟨control, frames, noted⟩)
    (succeeds : forall failure, control ≠ .failing failure)
    (same : otherFrames.filterMap Frame.resolution? = frames.filterMap Frame.resolution?) :
    InStep ⟨other, otherFrames, noted⟩ := by
  have sameResolutions : resolutions ⟨other, otherFrames, noted⟩ =
      resolutions ⟨control, frames, noted⟩ := same
  rcases inStep with ⟨apart, bounded, noted_eq⟩
  rw [← sameResolutions] at apart bounded noted_eq
  exact ⟨apart, bounded, fun _ => noted_eq succeeds⟩

omit [Scalar R] in
/-- After a failure only the frames matter. -/
theorem InStep.of_failing {control : Control R} {otherFrames : List (Frame R)}
    {noted otherNoted : Noted} {failure : Failure} (inStep : InStep ⟨control, frames, noted⟩)
    (fewer : (otherFrames.filterMap Frame.resolution?).Sublist
      (frames.filterMap Frame.resolution?)) :
    InStep ⟨.failing failure, otherFrames, otherNoted⟩ where
  apart := fewer.nodup inStep.apart
  bounded := Nat.le_trans fewer.length_le inStep.bounded
  noted := fun succeeds => absurd rfl (succeeds failure)

omit [Scalar R] in
/-- A resolution that is not under way yet may be entered. -/
theorem InStep.enter {control : Control R} {noted : Noted} {resolution : Resolution}
    {scopes : Scopes R} {scope : ScopeId} {expr : Expr R}
    (inStep : InStep ⟨control, frames, noted⟩)
    (succeeds : forall failure, control ≠ .failing failure)
    (fresh : resolution ∉ frames.filterMap Frame.resolution?) :
    (Machine.enter frames noted resolution scopes scope expr).InStep := by
  have noted_eq : noted = .of (frames.filterMap Frame.resolution?) := inStep.noted succeeds
  unfold Machine.enter
  split
  · exact inStep.of_failing (List.Sublist.refl _)
  · rename_i within
    rw [noted_eq, Noted.add_of] at within ⊢
    exact ⟨List.nodup_cons.mpr ⟨fresh, inStep.apart⟩, Nat.le_of_not_lt within, fun _ => rfl⟩

omit [Scalar R] in
/-- A variable is entered only when it is not under way. -/
theorem InStep.visitVariable {noted : Noted} {control : Control R} {scopes : Scopes R}
    {scope : ScopeId} {name : String} (inStep : InStep ⟨control, frames, noted⟩)
    (succeeds : forall failure, control ≠ .failing failure) :
    (Machine.visitVariable environment frames noted scopes scope name).InStep := by
  have noted_eq : noted = .of (frames.filterMap Frame.resolution?) := inStep.noted succeeds
  unfold Machine.visitVariable
  split
  · exact inStep.of_same succeeds rfl
  split
  · exact inStep.of_same succeeds rfl
  split
  · exact inStep.of_same succeeds rfl
  dsimp only
  split
  · exact inStep.of_same succeeds rfl
  · rename_i notNoted
    refine inStep.enter succeeds fun listed => notNoted ?_
    rw [noted_eq]
    exact Noted.mem_names.mpr listed

/-- A call is entered only when the function is not under way. -/
theorem InStep.visitCall {noted : Noted} {control : Control R} {scopes : Scopes R}
    {scope : ScopeId} {name : String} {arguments : List (String × Expr R)}
    (inStep : InStep ⟨control, frames, noted⟩)
    (succeeds : forall failure, control ≠ .failing failure) :
    (Machine.visitCall environment frames noted scopes scope name arguments).InStep := by
  have noted_eq : noted = .of (frames.filterMap Frame.resolution?) := inStep.noted succeeds
  unfold Machine.visitCall
  split
  · exact inStep.of_same succeeds rfl
  split
  · exact inStep.of_same succeeds rfl
  · rename_i notNoted
    refine inStep.enter succeeds fun listed => notNoted ?_
    rw [noted_eq]
    exact Noted.mem_functions.mpr listed

/-- Each step keeps everything in step. -/
theorem InStep.step (inStep : machine.InStep) : (machine.step environment).InStep := by
  rcases machine with ⟨control, frames, noted⟩
  cases control with
  | evaluating scopes scope expr =>
      have succeeds : forall failure, Control.evaluating scopes scope expr ≠ .failing failure :=
        fun _ => nofun
      cases expr with
      | var => exact inStep.visitVariable succeeds
      | call => exact inStep.visitCall succeeds
      | num | mem | memAt | func | factorial | sqrt | root | abs | fraction | binary | paren
      | marked | binding | equation | declaration | target => exact inStep.of_same succeeds rfl
  | returning quantity =>
      have succeeds : forall failure, Control.returning quantity ≠ .failing failure :=
        fun _ => nofun
      match frames with
      | [] => exact inStep
      | .last _ :: _ => exact inStep.of_same succeeds rfl
      | .first .. :: _ => exact inStep.of_same succeeds rfl
      | .resolved resolution :: frames =>
          have noted_eq : noted = .of (resolution :: frames.filterMap Frame.resolution?) :=
            inStep.noted succeeds
          have apart : (resolution :: frames.filterMap Frame.resolution?).Nodup := inStep.apart
          have inside := List.nodup_cons.mp apart
          refine ⟨inside.2, Nat.le_of_succ_le inStep.bounded, fun _ => ?_⟩
          rw [noted_eq]
          exact Noted.remove_of inside.1
  | failing failure =>
      match frames with
      | [] => exact inStep
      | .last _ :: _ => exact inStep.of_failing (List.Sublist.refl _)
      | .first .. :: _ => exact inStep.of_failing (List.Sublist.refl _)
      | .resolved _ :: _ => exact inStep.of_failing (List.sublist_cons_self _ _)

/-- Every state of a run is in step. -/
theorem inStep_run (environment : Environment R) (scopes : Scopes R) (scope : ScopeId)
    (expr : Expr R) (count : Nat) :
    ((step environment)^[count] (start scopes scope expr)).InStep := by
  induction count with
  | zero => exact inStep_start scopes scope expr
  | succ count inductionHypothesis =>
      rw [Function.iterate_succ_apply']
      exact inductionHypothesis.step

/-! ## Where a run leads -/

/-- The machine comes to an outcome and is left with these frames.  A quantity leaves the record
with what is noted here; after a failure the record does not matter. -/
def Settles (environment : Environment R) (machine : Machine R) (frames : List (Frame R))
    (noted : Noted) : Except Failure (Quantity R) -> Prop
  | .ok quantity =>
      ∃ count, (step environment)^[count] machine = ⟨.returning quantity, frames, noted⟩
  | .error failure =>
      ∃ count left, (step environment)^[count] machine = ⟨.failing failure, frames, left⟩

section

variable {noted : Noted} {scopes : Scopes R} {scope : ScopeId}
  {outcome : Except Failure (Quantity R)}

theorem settles_ok {quantity : Quantity R} :
    Settles environment ⟨.returning quantity, frames, noted⟩ frames noted (.ok quantity) :=
  ⟨0, rfl⟩

theorem settles_error {failure : Failure} {left : Noted} :
    Settles environment ⟨.failing failure, frames, left⟩ frames noted (.error failure) :=
  ⟨0, left, rfl⟩

theorem settles_settled :
    Settles environment ⟨.settled outcome, frames, noted⟩ frames noted outcome := by
  cases outcome with
  | ok quantity => exact settles_ok
  | error failure => exact settles_error

/-- A machine settles as it does after some steps. -/
theorem Settles.of_run (count : Nat)
    (settles : Settles environment ((step environment)^[count] machine) frames noted outcome) :
    Settles environment machine frames noted outcome := by
  cases outcome with
  | ok quantity =>
      rcases settles with ⟨more, reached⟩
      exact ⟨more + count, (Function.iterate_add_apply _ _ _ _).trans reached⟩
  | error failure =>
      rcases settles with ⟨more, left, reached⟩
      exact ⟨more + count, left, (Function.iterate_add_apply _ _ _ _).trans reached⟩

theorem Settles.of_step
    (settles : Settles environment (step environment machine) frames noted outcome) :
    Settles environment machine frames noted outcome :=
  .of_run 1 settles

/-- What a frame waits for is handed to it; a failure passes it by. -/
theorem Settles.bind {frame : Frame R} {inner : Noted}
    {rest : Quantity R -> Except Failure (Quantity R)}
    (settles : Settles environment machine (frame :: frames) inner outcome)
    (further : forall quantity, outcome = .ok quantity ->
      Settles environment ⟨.returning quantity, frame :: frames, inner⟩ frames noted
        (rest quantity)) :
    Settles environment machine frames noted (outcome >>= rest) := by
  cases outcome with
  | ok quantity =>
      rcases settles with ⟨count, reached⟩
      exact .of_run count (reached ▸ further quantity rfl)
  | error failure =>
      rcases settles with ⟨count, left, reached⟩
      refine .of_run count ?_
      rw [reached]
      cases frame with
      | last | first => exact ⟨1, left, rfl⟩
      | resolved resolution => exact ⟨1, left.remove resolution, rfl⟩

/-- The last operand of a node. -/
theorem Settles.last {finish : Quantity R -> Except Failure (Quantity R)}
    (settles : Settles environment machine (.last finish :: frames) noted outcome) :
    Settles environment machine frames noted (outcome >>= finish) :=
  settles.bind fun _ _ => .of_step settles_settled

/-- The first of two operands of a node. -/
theorem Settles.first {second : Expr R} {right : Except Failure (Quantity R)}
    {finish : Quantity R -> Quantity R -> Except Failure (Quantity R)}
    (left : Settles environment machine (.first scopes scope second finish :: frames) noted outcome)
    (further : forall frames, Settles environment ⟨.evaluating scopes scope second, frames, noted⟩
      frames noted right) :
    Settles environment machine frames noted (outcome >>= fun x => right >>= finish x) :=
  left.bind fun _ _ => .of_step (further _).last

/-- What a name stands for, noted before and taken back after. -/
theorem settles_enter {resolution : Resolution} {expr : Expr R}
    (fresh : resolution ∉ trail) (within : trail.length < resolutionLimit)
    (further : forall frames,
      Settles environment ⟨.evaluating scopes scope expr, frames, .of (resolution :: trail)⟩ frames
        (.of (resolution :: trail)) outcome) :
    Settles environment (enter frames (.of trail) resolution scopes scope expr) frames (.of trail)
      outcome := by
  have entered : enter frames (.of trail) resolution scopes scope expr =
      ⟨.evaluating scopes scope expr, .resolved resolution :: frames,
        .of (resolution :: trail)⟩ := by
    rw [enter, Noted.add_of, Noted.depth_of, List.length_cons, if_neg (Nat.not_lt_of_le within)]
  rw [entered, ← bind_pure outcome]
  refine (further _).bind fun quantity _ => .of_step ?_
  rw [step, Noted.remove_of fresh]
  exact settles_ok

/-- A resolution at the limit is refused. -/
theorem settles_tooDeep {resolution : Resolution} {expr : Expr R}
    (full : resolutionLimit ≤ trail.length) :
    Settles environment (enter frames (.of trail) resolution scopes scope expr) frames (.of trail)
      (.error (.resolutionTooDeep resolutionLimit)) := by
  rw [enter, Noted.add_of, Noted.depth_of, List.length_cons, if_pos (Nat.lt_succ_of_le full)]
  exact settles_error

/-- A variable settles when what it may be bound to does. -/
theorem settles_visitVariable {deeper : Evaluator R} {name : String}
    (onward : forall resolution place expr, resolution ∉ trail ->
      Settles environment (enter frames (.of trail) resolution scopes place expr) frames (.of trail)
        (deeper (resolution :: trail) scopes place expr)) :
    Settles environment (visitVariable environment frames (.of trail) scopes scope name) frames
      (.of trail) (evaluateVariable environment deeper trail scopes scope name) := by
  unfold visitVariable evaluateVariable
  split
  · exact settles_settled
  cases environment.constants.get? name with
  | some value => exact settles_ok
  | none =>
      cases scopes.lookup scope name with
      | error failure => exact settles_error
      | ok found =>
          rcases found with ⟨definedIn, bound⟩
          dsimp only [bind, Except.bind]
          simp only [Noted.mem_names, List.contains_iff_mem]
          split
          · exact settles_error
          · rename_i fresh
            exact onward _ _ _ fresh

/-- A call settles when the body of the function does. -/
theorem settles_visitCall {deeper : Evaluator R} {name : String}
    {arguments : List (String × Expr R)}
    (onward : forall resolution scopes place expr, resolution ∉ trail ->
      Settles environment (enter frames (.of trail) resolution scopes place expr) frames (.of trail)
        (deeper (resolution :: trail) scopes place expr)) :
    Settles environment (visitCall environment frames (.of trail) scopes scope name arguments)
      frames (.of trail) (evaluateCall environment deeper trail scopes scope name arguments) := by
  unfold visitCall evaluateCall
  cases environment.functions.get? name with
  | none => exact settles_ok
  | some definition =>
      simp only [Noted.mem_functions, List.contains_iff_mem]
      split
      · exact settles_error
      · rename_i fresh
        exact onward _ _ _ _ fresh

/-- An expression settles when what its names lead to does, by recursion on the expression. -/
theorem settles_evaluateWith {deeper : Evaluator R} (expr : Expr R) (frames : List (Frame R))
    (onward : forall frames resolution scopes place expr, resolution ∉ trail ->
      Settles environment (enter frames (.of trail) resolution scopes place expr) frames (.of trail)
        (deeper (resolution :: trail) scopes place expr)) :
    Settles environment ⟨.evaluating scopes scope expr, frames, .of trail⟩ frames (.of trail)
      (evaluateWith environment deeper trail scopes scope expr) := by
  match expr with
  | .num _ => exact .of_step settles_ok
  | .mem => exact .of_step settles_settled
  | .binding .. | .equation .. | .declaration .. | .target _ => exact .of_step settles_error
  | .var _ => exact .of_step (settles_visitVariable (onward frames · scopes))
  | .call .. => exact .of_step (settles_visitCall (onward frames))
  | .paren x => exact .of_step (settles_evaluateWith x frames onward)
  | .memAt x | .func _ x | .factorial x | .sqrt x | .abs x | .marked _ x =>
      exact .of_step (settles_evaluateWith x _ onward).last
  | .root x y | .fraction x y | .binary _ x y =>
      exact .of_step ((settles_evaluateWith x _ onward).first fun frames =>
        settles_evaluateWith y frames onward)

/-- The same for a number of resolutions that may still follow, by induction on this number. -/
theorem settles_evaluateWithin (rounds : Nat) {expr : Expr R} (frames : List (Frame R))
    (remaining : trail.length + rounds = resolutionLimit) :
    Settles environment ⟨.evaluating scopes scope expr, frames, .of trail⟩ frames (.of trail)
      (evaluateWithin environment rounds trail scopes scope expr) := by
  induction rounds generalizing trail scopes scope expr frames with
  | zero =>
      exact settles_evaluateWith expr frames fun _ _ _ _ _ _ =>
        settles_tooDeep (Nat.le_of_eq remaining.symm)
  | succ rounds inductionHypothesis =>
      refine settles_evaluateWith expr frames fun frames resolution scopes place expr fresh => ?_
      refine settles_enter fresh (by omega) fun frames => inductionHypothesis frames ?_
      rw [List.length_cons]
      omega

end

/-! ## The whole run -/

/-- The machine at rest with an outcome. -/
def finished (outcome : Except Failure (Quantity R)) (left : Noted) : Machine R :=
  ⟨.settled outcome, [], left⟩

/-- The machine goes on with what a name stands for. -/
def Enters (environment : Environment R) (machine : Machine R) (resolution : Resolution) : Prop :=
  ∃ scopes scope expr noted, machine.step environment =
    ⟨.evaluating scopes scope expr, .resolved resolution :: machine.frames, noted⟩

/-- A machine at rest stays at rest. -/
theorem step_finished (outcome : Except Failure (Quantity R)) (left : Noted) :
    step environment (finished outcome left) = finished outcome left := by
  cases outcome <;> rfl

/-- A machine that has failed enters nothing. -/
theorem Enters.succeeds {resolution : Resolution} (enters : machine.Enters environment resolution)
    (failure : Failure) : machine.control ≠ .failing failure := by
  rcases machine with ⟨control, frames, noted⟩
  rintro rfl
  rcases enters with ⟨scopes, scope, expr, noted, stepped⟩
  match frames with
  | [] | .last _ :: _ | .first .. :: _ | .resolved _ :: _ => cases stepped

/-- A resolution that has succeeded leaves the record as it was before. -/
theorem InStep.leave {before after : Machine R} {resolution : Resolution} {quantity : Quantity R}
    (inStep : before.InStep) (enters : before.Enters environment resolution)
    (inStepAfter : after.InStep) (succeeded : after.control = .returning quantity)
    (back : after.frames = .resolved resolution :: before.frames) :
    after.step environment = ⟨.returning quantity, before.frames, before.noted⟩ := by
  rcases after with ⟨control, frames, noted⟩
  cases succeeded
  cases back
  have apart : (resolution :: before.resolutions).Nodup := inStepAfter.apart
  have noted_eq : noted = .of (resolution :: before.resolutions) := inStepAfter.noted fun _ => nofun
  rw [Machine.step, noted_eq, Noted.remove_of (List.nodup_cons.mp apart).1,
    inStep.noted enters.succeeds]

end Machine

/--
Evaluation terminates, whatever the bindings, functions and defaults lead to.  After finitely
many steps the machine is at rest with the outcome of the evaluation, a quantity or a failure.
Until then there are never more expressions of resolutions inside one another than the limit,
and whenever a resolution that was entered has succeeded, the next step leaves the frames and
the record of what is under way as they were before.
-/
theorem evaluate_terminates [Scalar R] (environment : Environment R) (scopes : Scopes R)
    (scope : ScopeId) (expr : Expr R) :
    (∃ count left, (Machine.step environment)^[count] (.start scopes scope expr) =
      .finished (evaluate environment scopes scope expr) left) ∧
    forall count now, (Machine.step environment)^[count] (.start scopes scope expr) = now ->
      now.resolutions.length ≤ resolutionLimit ∧
      forall resolution, now.Enters environment resolution ->
        forall more after quantity,
          (Machine.step environment)^[more] (now.step environment) = after ->
          after.control = .returning quantity ->
          after.frames = .resolved resolution :: now.frames ->
            after.step environment = ⟨.returning quantity, now.frames, now.noted⟩ := by
  constructor
  · have settles : Machine.Settles environment (.start scopes scope expr) [] (.of [])
        (evaluateWithin environment resolutionLimit [] scopes scope expr) :=
      Machine.settles_evaluateWithin resolutionLimit [] (Nat.zero_add _)
    rw [evaluate]
    cases outcome : evaluateWithin environment resolutionLimit [] scopes scope expr with
    | ok quantity =>
        rw [outcome] at settles
        rcases settles with ⟨count, reached⟩
        exact ⟨count, _, reached⟩
    | error failure =>
        rw [outcome] at settles
        rcases settles with ⟨count, left, reached⟩
        exact ⟨count, left, reached⟩
  · rintro count _ rfl
    have inStep := Machine.inStep_run environment scopes scope expr count
    refine ⟨inStep.bounded, ?_⟩
    rintro resolution enters more _ quantity rfl
    have later := Machine.inStep_run environment scopes scope expr (more + (count + 1))
    rw [Function.iterate_add_apply, Function.iterate_succ_apply'] at later
    exact inStep.leave enters later

/-- Two names that are bound to each other in nested scopes: the sixth step fails. -/
example :
    (Machine.step (Environment.initial Registry.empty : Environment Float))^[6]
        (.start [⟨some 0, none, [("x", ⟨.var "y", none⟩)], [], []⟩,
          ⟨none, none, [("y", ⟨.paren (.var "x"), none⟩)], [], []⟩] 1 (.var "x")) =
      .finished (.error (.cyclicVariable "x")) ⟨∅, [], 0⟩ := by
  rfl

end QuantityCalculus
