import QuantityCalculus.Expr.Children
import QuantityCalculus.Number.BinaryScalar
import QuantityCalculus.Proofs.Evaluation.Resolution

namespace QuantityCalculus

/-!
# Reported cycles

The trail holds the names of the functions under way, and a function met again while it
is under way is reported as a cycle.  Arguments are evaluated where they are met, inside
the call that binds them, so the functions under way are not only those that call each
other: a function is also under way while an argument of its own call is evaluated.

Where the functions of a program do not lead back to themselves, where they have no
defaults and the outermost variables stand for numbers, nothing in the program is cyclic.
A cycle is reported nevertheless, but only for a function to which some call leads and an
argument of that same call as well; and no variable is ever reported.
-/

variable {R : Type}

/-! ## What leads to a function -/

/-- The body of one function calls another. -/
def Calls (store : FunctionStore R) (caller called : String) : Prop :=
  ∃ definition arguments, store.get? caller = some definition ∧
    .call called arguments ∈ definition.body.walk

/-- No function leads back to itself. -/
def AcyclicCalls (store : FunctionStore R) : Prop :=
  forall function, ¬ Relation.TransGen (Calls store) function function

/-- A function leads to another through any calls, or is the same. -/
abbrev CallsAtLast (store : FunctionStore R) : String -> String -> Prop :=
  Relation.ReflTransGen (Calls store)

/-- A call that is written in an expression leads to a function. -/
def Expr.LeadsTo (store : FunctionStore R) (expr : Expr R) (function : String) : Prop :=
  ∃ called arguments, .call called arguments ∈ expr.walk ∧ CallsAtLast store called function

/-- The calls of a program: those of an expression, and those of the functions it leads to. -/
def ProgramCall (store : FunctionStore R) (program : Expr R) (called : String)
    (arguments : Arguments R) : Prop :=
  .call called arguments ∈ program.walk ∨
    ∃ function definition, program.LeadsTo store function ∧
      store.get? function = some definition ∧ .call called arguments ∈ definition.body.walk

/-- Some call of a program leads to a function, and so does one of its own arguments. -/
def SharedWithArgument (store : FunctionStore R) (program : Expr R) (function : String) : Prop :=
  ∃ called arguments, ProgramCall store program called arguments ∧
    CallsAtLast store called function ∧
    ∃ entry, entry ∈ arguments.toList ∧ entry.2.LeadsTo store function

section

variable {store : FunctionStore R} {program expr : Expr R} {function : String}

/-- What an evaluation meets in an expression is a part of it. -/
theorem Expr.walk_of_references {part other : Expr R} (expr : Expr R)
    (met : part ∈ expr.references) (inside : other ∈ part.walk) : other ∈ expr.walk := by
  match expr with
  | .var _ | .call .. => exact List.mem_singleton.mp met ▸ inside
  | .memAt x | .func _ x | .factorial x | .sqrt x | .abs x | .paren x | .marked _ x =>
      exact List.mem_cons_of_mem _ (Expr.walk_of_references x met inside)
  | .root x y | .fraction x y | .binary _ x y =>
      exact List.mem_cons_of_mem _ <| List.mem_append.mpr <| (List.mem_append.mp met).imp
        (fun left => Expr.walk_of_references x left inside)
        (fun right => Expr.walk_of_references y right inside)
  | .num _ | .mem | .binding .. | .equation .. | .declaration .. | .target _ => cases met

theorem Expr.mem_walk_call {called : String} {arguments : Arguments R} :
    .call called arguments ∈ (Expr.call called arguments).walk :=
  List.mem_cons_self

/-- The parts of an argument are parts of all arguments. -/
theorem Arguments.walk_of_mem {part : Expr R} {entry : String × Expr R} (arguments : Arguments R)
    (member : entry ∈ arguments.toList) (inside : part ∈ entry.2.walk) :
    part ∈ arguments.walk := by
  match arguments with
  | .nil => cases member
  | .cons _ _ rest =>
      refine List.mem_cons_of_mem _ (List.mem_append.mpr ?_)
      rcases List.mem_cons.mp member with rfl | later
      · exact Or.inl inside
      · exact Or.inr (Arguments.walk_of_mem rest later inside)

/-- An argument of a call that is met is a part of the expression. -/
theorem Expr.walk_of_argument {part : Expr R} {called : String} {arguments : Arguments R}
    {entry : String × Expr R} (met : .call called arguments ∈ expr.references)
    (member : entry ∈ arguments.toList) (inside : part ∈ entry.2.walk) : part ∈ expr.walk :=
  Expr.walk_of_references expr met
    (List.mem_cons_of_mem _ (Arguments.walk_of_mem arguments member inside))

/-- A number leads nowhere. -/
theorem not_leadsTo_num {value : R} : ¬ (Expr.num value).LeadsTo store function := by
  rintro ⟨called, arguments, inside, _⟩
  cases List.mem_singleton.mp inside

/-- A call leads where the function leads. -/
theorem leadsTo_of_call {called : String} {arguments : Arguments R}
    (met : .call called arguments ∈ expr.references)
    (leads : CallsAtLast store called function) : expr.LeadsTo store function :=
  ⟨called, arguments, Expr.walk_of_references expr met Expr.mem_walk_call, leads⟩

/-- A function leads where its body leads, and not by standing still. -/
theorem callsAtLast_of_body {called : String} {definition : FunctionDefinition R}
    (stored : store.get? called = some definition)
    (leads : definition.body.LeadsTo store function) :
    Relation.TransGen (Calls store) called function := by
  rcases leads with ⟨next, arguments, inside, further⟩
  exact Relation.TransGen.head' ⟨definition, arguments, stored, inside⟩ further

/-- A call leads where its arguments lead. -/
theorem leadsTo_of_argument {called : String} {arguments : Arguments R}
    {entry : String × Expr R} (met : .call called arguments ∈ expr.references)
    (member : entry ∈ arguments.toList) (leads : entry.2.LeadsTo store function) :
    expr.LeadsTo store function := by
  rcases leads with ⟨next, others, inside, further⟩
  exact ⟨next, others, Expr.walk_of_argument met member inside, further⟩

/-- A program leads to the functions it calls. -/
theorem leadsTo_of_programCall {called : String} {arguments : Arguments R}
    (call : ProgramCall store program called arguments) : program.LeadsTo store called := by
  rcases call with written | ⟨caller, definition, leads, stored, inside⟩
  · exact ⟨called, arguments, written, .refl⟩
  · rcases leads with ⟨first, others, written, further⟩
    exact ⟨first, others, written, further.tail ⟨definition, arguments, stored, inside⟩⟩

end

/-! ## Scopes inside scopes -/

section

variable (store : FunctionStore R) (program : Expr R)

/-- All calls written in an expression are calls of the program. -/
def WithinProgram (expr : Expr R) : Prop :=
  forall called arguments, .call called arguments ∈ expr.walk ->
    ProgramCall store program called arguments

/-- What is bound around a scope leads to a function only where a call and its argument do. -/
def ApartAround (scopes : Scopes R) (scope : ScopeId) (function : String) : Prop :=
  forall entry, entry ∈ scopes.chain scope -> forall binding, binding ∈ entry.2.bindings ->
    binding.2.expr.LeadsTo store function -> SharedWithArgument store program function

/-- Scopes of calls around a scope, up to an outer chain.  Each scope binds arguments, to be
evaluated in the next; and where an argument leads, nothing leads that is bound further out. -/
inductive CallScopes (outer : List (ScopeId × Scope R)) (scopes : Scopes R) : ScopeId -> Prop
  | outer {id} : scopes.chain id = outer -> CallScopes outer scopes id
  | call {id parent : ScopeId} {scope : Scope R} :
      scopes.chain id = (id, scope) :: scopes.chain parent -> parent < scopes.length ->
      (forall entry, entry ∈ scopes.chain parent -> entry.1 < id) ->
      (forall binding, binding ∈ scope.bindings ->
        binding.2.scope = some parent ∧ WithinProgram store program binding.2.expr ∧
          forall function, binding.2.expr.LeadsTo store function ->
            ApartAround store program scopes parent function) ->
      CallScopes outer scopes parent -> CallScopes outer scopes id

end

section

variable {store : FunctionStore R} {program : Expr R} {scopes : Scopes R}
  {outer : List (ScopeId × Scope R)}

/-- What is bound around an older scope is not changed by a new one. -/
theorem apartAround_cons {new : Scope R} {scope : ScopeId} {function : String}
    (older : scope < scopes.length) (apart : ApartAround store program scopes scope function) :
    ApartAround store program (new :: scopes) scope function := by
  intro entry member
  rw [Scopes.chain_cons_of_lt older] at member
  exact apart entry member

theorem CallScopes.cons {new : Scope R} {scope : ScopeId} (older : scope < scopes.length)
    (around : CallScopes store program outer scopes scope) :
    CallScopes store program outer (new :: scopes) scope := by
  induction around with
  | outer same => exact .outer ((Scopes.chain_cons_of_lt older).trans same)
  | @call id parent inner chain there below bindings _ inductionHypothesis =>
      have sameChain : Scopes.chain parent (new :: scopes) = scopes.chain parent :=
        Scopes.chain_cons_of_lt there
      have chainNow : Scopes.chain id (new :: scopes) =
          (id, inner) :: Scopes.chain parent (new :: scopes) := by
        rw [sameChain, Scopes.chain_cons_of_lt older]
        exact chain
      refine .call chainNow (Nat.lt_succ_of_lt there) ?_ (fun binding member => ?_)
        (inductionHypothesis there)
      · rw [sameChain]
        exact below
      · rcases bindings binding member with ⟨atCall, within, apart⟩
        exact ⟨atCall, within, fun function leads => apartAround_cons there (apart function leads)⟩

/-- A name is found as a number of the outer chain, or as an argument of a call around. -/
theorem CallScopes.lookup {scope definedIn : ScopeId} {name : String} {bound : BoundExpr R}
    (literals : forall entry, entry ∈ outer -> forall binding, binding ∈ entry.2.bindings ->
      ∃ value, binding.2.expr = .num value)
    (around : CallScopes store program outer scopes scope)
    (found : scopes.lookup? scope name = some (definedIn, bound)) :
    (∃ value, bound.expr = .num value) ∨
      ∃ parent, bound.scope = some parent ∧ parent < scopes.length ∧
        CallScopes store program outer scopes parent ∧
        WithinProgram store program bound.expr ∧
        (forall function, bound.expr.LeadsTo store function ->
          ApartAround store program scopes parent function) ∧
        (forall entry, entry ∈ scopes.chain parent -> entry.1 < definedIn) ∧
        forall entry, entry ∈ scopes.chain parent -> entry ∈ scopes.chain scope := by
  induction around with
  | outer same =>
      rw [Scopes.lookup?, same] at found
      rcases Scopes.lookupIn?_mem found with ⟨holder, member, binding⟩
      exact Or.inl (literals _ member _ binding)
  | @call id parent inner chain there below bindings outside inductionHypothesis =>
      rw [Scopes.lookup?, chain, Scopes.lookupIn?] at found
      cases here : inner.bindings.get? name with
      | some value =>
          rw [here] at found
          cases found
          rcases bindings _ (Table.mem_of_get? here) with ⟨atCall, within, apart⟩
          refine Or.inr ⟨parent, atCall, there, outside, within, apart, below, ?_⟩
          intro entry member
          rw [chain]
          exact List.mem_cons_of_mem _ member
      | none =>
          rw [here] at found
          refine (inductionHypothesis found).imp_right ?_
          rintro ⟨further, atCall, older, outside, within, apart, below, inside⟩
          refine ⟨further, atCall, older, outside, within, apart, below, fun entry member => ?_⟩
          rw [chain]
          exact List.mem_cons_of_mem _ (inside entry member)

end

/-! ## What is under way, and what is still ahead -/

/-- An evaluation in which nothing ahead leads back to what is under way, except where a call and
its argument lead to the same function. -/
structure Evaluation.Apart (store : FunctionStore R) (program : Expr R)
    (outer : List (ScopeId × Scope R)) (now : Evaluation R) : Prop where
  there : now.scope < now.scopes.length
  within : WithinProgram store program now.expr
  around : CallScopes store program outer now.scopes now.scope
  ahead : forall function, .function function ∈ now.trail -> now.expr.LeadsTo store function ->
    SharedWithArgument store program function
  bound : forall function,
    .function function ∈ now.trail ∨ now.expr.LeadsTo store function ->
      ApartAround store program now.scopes now.scope function
  elsewhere : forall definedIn name evaluatedIn,
    .variable definedIn name evaluatedIn ∈ now.trail ->
      definedIn < now.scopes.length ∧
        forall entry, entry ∈ now.scopes.chain now.scope -> entry.1 ≠ definedIn

namespace Evaluation

variable {environment : Environment R} {program : Expr R}
  {outer : List (ScopeId × Scope R)} {now : Evaluation R}

/-- A variable leads to a number, or to an argument that is as far apart. -/
theorem Apart.lookup {name : String} {definedIn : ScopeId} {bound : BoundExpr R}
    (literals : forall entry, entry ∈ outer -> forall binding, binding ∈ entry.2.bindings ->
      ∃ value, binding.2.expr = .num value)
    (apart : now.Apart environment.functions program outer)
    (found : now.scopes.lookup? now.scope name = some (definedIn, bound)) :
    (∃ value, bound.expr = .num value) ∨
      Apart environment.functions program outer
        ⟨.variable definedIn name (bound.scope.getD now.scope) :: now.trail, now.scopes,
          bound.scope.getD now.scope, bound.expr⟩ := by
  refine (apart.around.lookup literals found).imp_right ?_
  rintro ⟨parent, atCall, there, around, within, clear, below, inside⟩
  rcases Scopes.lookupIn?_mem found with ⟨holder, member, binding⟩
  rw [atCall]
  -- A resolution of a variable is no function.
  have underWay : forall {function : String} {resolution : Resolution},
      .function function ∈ resolution :: now.trail -> resolution ≠ .function function ->
        .function function ∈ now.trail :=
    fun listed different => (List.mem_cons.mp listed).resolve_left (Ne.symm different)
  refine ⟨there, within, around, ?_, ?_, ?_⟩
  · intro function listed leads
    exact apart.bound function (Or.inl (underWay listed nofun)) _ member _ binding leads
  · intro function reason
    rcases reason with listed | leads
    · exact fun entry outside =>
        apart.bound function (Or.inl (underWay listed nofun)) entry (inside entry outside)
    · exact clear function leads
  · intro otherIn other evaluatedIn listed
    rcases List.mem_cons.mp listed with same | before
    · cases same
      exact ⟨(Scopes.of_mem_chain member).1, fun entry outside =>
        Nat.ne_of_lt (below entry outside)⟩
    · rcases apart.elsewhere otherIn other evaluatedIn before with ⟨older, elsewhere⟩
      exact ⟨older, fun entry outside => elsewhere entry (inside entry outside)⟩

/-- The scope of a call whose arguments are apart from what the call leads to. -/
theorem Apart.insideCall {name function : String} {arguments : Arguments R}
    {definition : FunctionDefinition R} (noDefaults : definition.defaults = [])
    (apart : now.Apart environment.functions program outer)
    (met : .call name arguments ∈ now.expr.references)
    (reason : .function function ∈ now.trail ∨ CallsAtLast environment.functions name function) :
    ApartAround environment.functions program
      (openedScope now.scopes now.scope definition arguments.toList :: now.scopes)
      now.scopes.length function := by
  have outside : ApartAround environment.functions program now.scopes now.scope function :=
    apart.bound function (reason.imp_right (leadsTo_of_call met))
  have written : ProgramCall environment.functions program name arguments :=
    apart.within name arguments (Expr.walk_of_references now.expr met Expr.mem_walk_call)
  intro entry member binding bound leads
  rw [Scopes.chain_cons_length rfl] at member
  rcases List.mem_cons.mp member with rfl | further
  · rcases mem_openedScope bound with ⟨_, supplied⟩ | ⟨_, argument⟩
    · rw [noDefaults] at supplied
      cases supplied
    · rcases reason with listed | called
      · exact apart.ahead function listed (leadsTo_of_argument met argument leads)
      · exact ⟨name, arguments, written, called, _, argument, leads⟩
  · exact outside entry further binding bound leads

/-- The scope of a call stands around the scope of the call, with the arguments bound in it. -/
theorem Apart.aroundCall {name : String} {arguments : Arguments R}
    {definition : FunctionDefinition R} (noDefaults : definition.defaults = [])
    (apart : now.Apart environment.functions program outer)
    (met : .call name arguments ∈ now.expr.references) :
    CallScopes environment.functions program outer
      (openedScope now.scopes now.scope definition arguments.toList :: now.scopes)
      now.scopes.length := by
  have sameChain : Scopes.chain now.scope
      (openedScope now.scopes now.scope definition arguments.toList :: now.scopes) =
        now.scopes.chain now.scope :=
    Scopes.chain_cons_of_lt apart.there
  have chain : Scopes.chain now.scopes.length
      (openedScope now.scopes now.scope definition arguments.toList :: now.scopes) =
        (now.scopes.length, openedScope now.scopes now.scope definition arguments.toList) ::
          Scopes.chain now.scope
            (openedScope now.scopes now.scope definition arguments.toList :: now.scopes) := by
    rw [sameChain]
    exact Scopes.chain_cons_length rfl
  refine .call chain (Nat.lt_succ_of_lt apart.there) ?_ ?_ (apart.around.cons apart.there)
  · rw [sameChain]
    exact fun entry member => (Scopes.of_mem_chain member).1
  · intro binding bound
    rcases mem_openedScope bound with ⟨_, supplied⟩ | ⟨atCall, argument⟩
    · rw [noDefaults] at supplied
      cases supplied
    · refine ⟨atCall, fun called others inside => ?_, fun function leads => ?_⟩
      · exact apart.within called others (Expr.walk_of_argument met argument inside)
      · exact apartAround_cons apart.there
          (apart.bound function (Or.inr (leadsTo_of_argument met argument leads)))

/-- A call opens a scope in which everything is as far apart. -/
theorem Apart.call {name : String} {arguments : Arguments R}
    {definition : FunctionDefinition R} (acyclic : AcyclicCalls environment.functions)
    (noDefaults : definition.defaults = [])
    (apart : now.Apart environment.functions program outer)
    (met : .call name arguments ∈ now.expr.references)
    (stored : environment.functions.get? name = some definition) :
    Apart environment.functions program outer
      ⟨.function name :: now.trail,
        openedScope now.scopes now.scope definition arguments.toList :: now.scopes,
        now.scopes.length, definition.body⟩ := by
  have written : ProgramCall environment.functions program name arguments :=
    apart.within name arguments (Expr.walk_of_references now.expr met Expr.mem_walk_call)
  refine ⟨Nat.lt_succ_self _, ?_, ?_, ?_, ?_, ?_⟩
  · intro called others inside
    exact Or.inr ⟨name, definition, leadsTo_of_programCall written, stored, inside⟩
  · exact apart.aroundCall noDefaults met
  · intro function listed leads
    have called := callsAtLast_of_body stored leads
    rcases List.mem_cons.mp listed with same | before
    · cases same
      exact absurd called (acyclic _)
    · exact apart.ahead function before (leadsTo_of_call met called.to_reflTransGen)
  · intro function reason
    refine Apart.insideCall noDefaults apart met ?_
    rcases reason with listed | leads
    · rcases List.mem_cons.mp listed with same | before
      · cases same
        exact Or.inr .refl
      · exact Or.inl before
    · exact Or.inr (callsAtLast_of_body stored leads).to_reflTransGen
  · intro definedIn other evaluatedIn listed
    have before := (List.mem_cons.mp listed).resolve_left nofun
    rcases apart.elsewhere definedIn other evaluatedIn before with ⟨older, elsewhere⟩
    refine ⟨Nat.lt_succ_of_lt older, fun entry member => ?_⟩
    rw [Scopes.chain_cons_length rfl] at member
    rcases List.mem_cons.mp member with rfl | further
    · exact Nat.ne_of_gt older
    · exact elsewhere entry further

/-- Wherever an evaluation goes, it evaluates a number, or everything is apart. -/
theorem Apart.reaches {last : Evaluation R} (acyclic : AcyclicCalls environment.functions)
    (noDefaults : forall name definition, environment.functions.get? name = some definition ->
      definition.defaults = [])
    (literals : forall entry, entry ∈ outer -> forall binding, binding ∈ entry.2.bindings ->
      ∃ value, binding.2.expr = .num value)
    (apart : now.Apart environment.functions program outer)
    (reached : now.Reaches environment last) :
    (∃ value, last.expr = .num value) ∨ last.Apart environment.functions program outer := by
  induction reached with
  | refl => exact Or.inr apart
  | @tail middle _ _ step inductionHypothesis =>
      rcases inductionHypothesis with ⟨value, number⟩ | apart
      · -- A number has no names, so the evaluation does not go on.
        have stuck : middle.expr.references = [] := by rw [number]; rfl
        cases step with
        | lookup met _ _ _ => rw [stuck] at met; cases met
        | call met _ _ => rw [stuck] at met; cases met
      · cases step with
        | lookup _ _ _ found => exact apart.lookup literals found
        | call met stored _ => exact Or.inr (apart.call acyclic (noDefaults _ _ stored) met stored)

/-- Where everything is apart, only a function is reported, one to which a call and its argument
lead. -/
theorem Apart.stops {failure : Failure} (apart : now.Apart environment.functions program outer)
    (stops : now.Stops environment failure) :
    (∃ name, failure = .unknownVariable name) ∨
      ∃ callers function, failure = .cyclicFunction callers function ∧
        SharedWithArgument environment.functions program function := by
  cases stops with
  | unbound _ _ _ _ => exact Or.inl ⟨_, rfl⟩
  | variableAgain _ found again =>
      rcases Scopes.lookupIn?_mem found with ⟨holder, member, _⟩
      exact absurd rfl ((apart.elsewhere _ _ _ again).2 _ member)
  | functionAgain met again =>
      exact Or.inr ⟨_, _, rfl, apart.ahead _ again (leadsTo_of_call met .refl)⟩

end Evaluation

/-! ## Reported cycles -/

/-- Only a name that leads back to itself has the code of a cycle. -/
theorem Failure.cyclic_of_code {failure : Failure} (code : failure.code = "CYCLIC_REFERENCE") :
    (∃ name, failure = .cyclicVariable name) ∨
      ∃ callers name, failure = .cyclicFunction callers name := by
  cases failure with
  | cyclicVariable name => exact Or.inl ⟨name, rfl⟩
  | cyclicFunction callers name => exact Or.inr ⟨callers, name, rfl⟩
  | _ => exact absurd code (by simp [Failure.code, Failure.kind])

/--
Where no function leads back to itself, where functions have no defaults and all visible
variables stand for numbers, a cycle is reported only for a function to which some call
of the program leads together with one of its own arguments.
-/
theorem reportedCycle_sharedWithArgument [Scalar R] {environment : Environment R}
    {scopes : Scopes R} {scope : ScopeId} {program : Expr R} {failure : Failure}
    (acyclic : AcyclicCalls environment.functions)
    (noDefaults : forall name definition, environment.functions.get? name = some definition ->
      definition.defaults = [])
    (there : scope < scopes.length)
    (literals : forall entry, entry ∈ scopes.chain scope ->
      forall binding, binding ∈ entry.2.bindings -> ∃ value, binding.2.expr = .num value)
    (failed : evaluate environment scopes scope program = .error failure)
    (code : failure.code = "CYCLIC_REFERENCE") :
    ∃ callers function, failure = .cyclicFunction callers function ∧
      SharedWithArgument environment.functions program function := by
  have atFirst : Evaluation.Apart environment.functions program (scopes.chain scope)
      ⟨[], scopes, scope, program⟩ := by
    refine ⟨there, fun _ _ inside => Or.inl inside, .outer rfl, nofun, ?_, nofun⟩
    intro function _ entry member binding bound leads
    rcases literals entry member binding bound with ⟨value, number⟩
    rw [number] at leads
    exact absurd leads not_leadsTo_num
  have reference : failure.IsReference := by
    rcases Failure.cyclic_of_code code with ⟨_, rfl⟩ | ⟨_, _, rfl⟩ <;> trivial
  rcases evaluate_fails reference failed with ⟨last, reached, stops⟩
  rcases atFirst.reaches acyclic noDefaults literals reached with ⟨value, number⟩ | apart
  · have noNames : last.expr.references = [] := by rw [number]; rfl
    cases stops with
    | unbound met _ _ _ => rw [noNames] at met; cases met
    | variableAgain met _ _ => rw [noNames] at met; cases met
    | functionAgain met _ => rw [noNames] at met; cases met
  · rcases apart.stops stops with ⟨_, rfl⟩ | reported
    · exact absurd code (by simp [Failure.code, Failure.kind])
    · exact reported

/-! ## A function in an argument of its own call -/

/-- One stored function, `x + 1`, which calls nothing. -/
def successorStore : FunctionStore Float :=
  [("f", ⟨.binary .add (.var "x") (.num 1), []⟩)]

/-- An environment with that function and no units. -/
def successorEnvironment : Environment Float :=
  { Environment.initial Registry.empty with functions := successorStore }

/-- The call `$f{x=$f{x=1}}`. -/
def successorTwice : Expr Float :=
  .call "f" (.cons "x" (.call "f" (.cons "x" (.num 1) .nil)) .nil)

theorem successorStore_callsNothing (caller called : String) :
    ¬ Calls successorStore caller called := by
  rintro ⟨definition, arguments, stored, inside⟩
  cases List.mem_singleton.mp (Table.mem_of_get? stored)
  simp [Expr.walk] at inside

theorem successorStore_acyclic : AcyclicCalls successorStore := by
  intro function cycle
  rcases Relation.TransGen.head'_iff.mp cycle with ⟨called, calls, _⟩
  exact successorStore_callsNothing function called calls

theorem successorStore_noDefaults (name : String) (definition : FunctionDefinition Float)
    (stored : successorStore.get? name = some definition) : definition.defaults = [] := by
  cases List.mem_singleton.mp (Table.mem_of_get? stored)
  rfl

theorem reportedCycle_sharedWithArgument_successor :
    evaluate successorEnvironment (Scopes.openRoot [] []).2 0 successorTwice =
        .error (.cyclicFunction ["f"] "f") ∧
      SharedWithArgument successorStore successorTwice "f" := by
  have literals : forall entry, entry ∈ Scopes.chain 0 (Scopes.openRoot ([] : Scopes Float) []).2 ->
      forall binding, binding ∈ entry.2.bindings -> ∃ value, binding.2.expr = .num value := by
    intro entry member binding bound
    cases List.mem_singleton.mp member
    cases bound
  have failed : evaluate successorEnvironment (Scopes.openRoot [] []).2 0 successorTwice =
      .error (.cyclicFunction ["f"] "f") := rfl
  rcases reportedCycle_sharedWithArgument successorStore_acyclic successorStore_noDefaults
    Nat.zero_lt_one literals failed rfl with ⟨callers, function, same, shared⟩
  cases same
  exact ⟨failed, shared⟩

/-- The call `$f{x=$f{x=1}}` is reported as a cycle, though its function calls nothing. -/
theorem acyclicCall_reported :
    AcyclicCalls successorStore ∧
      (forall name definition, successorStore.get? name = some definition ->
        definition.defaults = []) ∧
      Scopes.visible (Scopes.openRoot ([] : Scopes Float) []).2 0 = [] ∧
      evaluate successorEnvironment (Scopes.openRoot [] []).2 0 successorTwice =
        .error (.cyclicFunction ["f"] "f") ∧
      (Failure.cyclicFunction ["f"] "f").code = "CYCLIC_REFERENCE" :=
  ⟨successorStore_acyclic, successorStore_noDefaults, rfl, rfl, rfl⟩

end QuantityCalculus
