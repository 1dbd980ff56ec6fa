import QuantityCalculus.Text.Quoted
import QuantityCalculus.Number.Written

namespace QuantityCalculus

/-!
Everything that can go wrong, by cause.

A failure records why an operation has no result.  Its kind, its short code,
its wording and, for faults in a text, its position are functions of the cause,
so that a statement about failures never has to speak about wording.
-/

/-- What the reader of a statement expected where it found something else. -/
inductive Expectation where
  /-- Some part of an expression, or the end. -/
  | token
  | name
  | symbol (text : String)
deriving DecidableEq, Repr

/-- The causes of failure. -/
inductive Failure where
  -- Texts and values that are refused as they are.
  | emptyInput
  | tooLong (limit : Nat)
  | unbalanced (position : Nat)
  | tooDeeplyNested (limit : Nat)
  | unknownAngleMode (text : String)
  | fractionalIndex (shown : String)
  | invalidFunctionName (name : String)
  | reservedFunctionName (name : String)
  | duplicateFunction (name : String)
  | invalidAssignment (equation : String)
  | invalidVariableName (name : String)
  | invalidConstantName (name : String)
  | selfReference (name : String)
  | builtInConstant (name : String)
  | usage (text : String)
  | unknownListing (what : String)
  | unknownClearing (what : String)
  | notEditing
  | emptyStash
  | unknownForm (name : String)
  | nothingToPlot
  | emptyPlotRange
  | plotOutOfRange
  -- Faults in the wording of a statement.
  | unterminatedUnit (position : Nat)
  | invalidCharacter (c : Char) (position : Nat)
  | unexpected (expectation : Expectation) (found : Option String) (position : Nat)
  | invalidUnitDescriptor (text : String) (position : Nat)
  | emptyUnitDescriptor (position : Nat)
  | repeatedEquals (position : Nat)
  | notAnExpression
  -- Names that refer to nothing.
  | unknownVariable (name : String)
  | unknownMemory (index : Int)
  | unknownUnit (symbol : String)
  | unknownCatalog (name : String)
  | unknownFunction (name : String)
  | unknownConstant (name : String)
  -- References that lead back to themselves.
  | cyclicVariable (name : String)
  | cyclicFunction (callers : List String) (name : String)
  | resolutionTooDeep (limit : Nat)
  -- Operations that are not defined.
  | statementEvaluated (kind : String)
  | invalidRandomName (name : String)
  | functionNotImplemented (name : String)
  | operatorOnUnits (operator : String)
  | notInvertible (what : String)
  | notAnEquation (text : String)
  | noSymbolicForm (kind : String)
  -- Units that do not go together.
  | noUnitRelation (left operator right : String)
  -- Declarations of the wrong shape.
  | relationOnDimensionless
  | invalidDescriptor (line : String)
  | numericOperand (line : String)
  | emptyUnitFile
  | relationForm (equation : String)
  | emptyUnitSymbol
  | missingBatchUnit (symbol catalog : String)
  | missingUnit (symbol : String)
  | batchFinished (catalog : String)
  | functionWithoutBody (name : String)
  | invalidDefault (name line : String)
  | noSingleVariable (equation : String)
  -- Variables that cannot be isolated.
  | targetNotFound (name : String)
  | targetNotUnique (name : String)
deriving DecidableEq, Repr

/-- The groups that a caller may tell apart. -/
inductive FailureKind where
  | validation
  | parse
  | unresolved
  | cyclic
  | unsupported
  | dimensional
  | malformed
  | precondition
deriving DecidableEq, Repr

namespace Failure

/-- The group of a failure. -/
def kind : Failure -> FailureKind
  | emptyInput | tooLong _ | unbalanced _ | tooDeeplyNested _ | unknownAngleMode _
  | fractionalIndex _ | invalidFunctionName _ | reservedFunctionName _ | duplicateFunction _
  | invalidAssignment _ | invalidVariableName _ | invalidConstantName _ | selfReference _
  | builtInConstant _ | usage _ | unknownListing _ | unknownClearing _ | notEditing
  | emptyStash | unknownForm _ | nothingToPlot | emptyPlotRange | plotOutOfRange => .validation
  | unterminatedUnit _ | invalidCharacter .. | unexpected .. | invalidUnitDescriptor ..
  | emptyUnitDescriptor _ | repeatedEquals _ | notAnExpression => .parse
  | unknownVariable _ | unknownMemory _ | unknownUnit _ | unknownCatalog _ | unknownFunction _
  | unknownConstant _ => .unresolved
  | cyclicVariable _ | cyclicFunction .. | resolutionTooDeep _ => .cyclic
  | statementEvaluated _ | invalidRandomName _ | functionNotImplemented _ | operatorOnUnits _
  | notInvertible _ | notAnEquation _ | noSymbolicForm _ => .unsupported
  | noUnitRelation .. => .dimensional
  | relationOnDimensionless | invalidDescriptor _ | numericOperand _ | emptyUnitFile
  | relationForm _ | emptyUnitSymbol | missingBatchUnit .. | missingUnit _ | batchFinished _
  | functionWithoutBody _ | invalidDefault .. | noSingleVariable _ => .malformed
  | targetNotFound _ | targetNotUnique _ => .precondition

/-- The short code of a failure; a group has one code unless a cause has its own. -/
def code : Failure -> String
  | emptyInput => "EMPTY_INPUT"
  | tooLong _ => "TOO_LONG"
  | unbalanced _ | unterminatedUnit _ => "UNBALANCED"
  | tooDeeplyNested _ | resolutionTooDeep _ => "TOO_DEEP"
  | unknownAngleMode _ => "INVALID_ANGLE_MODE"
  | fractionalIndex _ => "INVALID_INDEX"
  | invalidFunctionName _ | reservedFunctionName _ => "INVALID_FUNCTION_NAME"
  | duplicateFunction _ => "DUPLICATE_FUNCTION"
  | invalidAssignment _ => "INVALID_ASSIGNMENT"
  | invalidVariableName _ | invalidConstantName _ => "INVALID_VARIABLE_NAME"
  | selfReference _ => "SELF_REFERENCE"
  | builtInConstant _ => "READ_ONLY"
  | usage _ | unknownListing _ | unknownClearing _ => "INVALID_COMMAND"
  | notEditing => "NOT_EDITING"
  | emptyStash => "EMPTY_STASH"
  | unknownForm _ => "INVALID_MODE"
  | nothingToPlot => "EMPTY_INPUT"
  | emptyPlotRange => "INVALID_RANGE"
  | plotOutOfRange => "OUT_OF_RANGE"
  | invalidCharacter .. => "INVALID_CHARACTER"
  | invalidUnitDescriptor .. | emptyUnitDescriptor _ => "INVALID_UNIT"
  | repeatedEquals _ => "INVALID_EQUATION"
  | notAnExpression => "NOT_AN_EXPRESSION"
  | notAnEquation _ => "NOT_AN_EQUATION"
  | targetNotFound _ => "TARGET_NOT_FOUND"
  | targetNotUnique _ => "TARGET_NOT_UNIQUE"
  | failure =>
      match failure.kind with
      | .validation => "VALIDATION_ERROR"
      | .parse => "PARSE_ERROR"
      | .unresolved => "UNRESOLVED_REFERENCE"
      | .cyclic => "CYCLIC_REFERENCE"
      | .unsupported => "UNSUPPORTED_OPERATION"
      | .dimensional => "DIMENSIONAL_MISMATCH"
      | .malformed => "MALFORMED_DECLARATION"
      | .precondition => "PRECONDITION_VIOLATION"

/-- A fault in a text knows where it stands, unless it concerns the text as a whole. -/
def position? : Failure -> Option Nat
  | unterminatedUnit position | invalidCharacter _ position | unexpected _ _ position
  | invalidUnitDescriptor _ position | emptyUnitDescriptor position | repeatedEquals position =>
      some position
  | _ => none

/-- A number of places or positions as text. -/
def number (n : Nat) : String := String.ofList (Number.integerText n)

/-- How an expectation is worded. -/
def expectationText : Expectation -> String
  | .token => "Unexpected token"
  | .name => "Expected a name"
  | .symbol text => "Expected " ++ Text.quoted text

/-- How the place where an expectation failed is worded. -/
def foundText : Option String -> String
  | none => "end of input"
  | some text => Text.quoted text

/-- The wording of a failure. -/
def message : Failure -> String
  | emptyInput => "Empty input"
  | tooLong limit => "Input too long (max " ++ number limit ++ " characters)"
  | unbalanced position =>
      "Unbalanced parentheses or brackets at position " ++ number position
  | tooDeeplyNested limit =>
      "Expression too deeply nested (max depth " ++ number limit ++ ")"
  | unknownAngleMode text =>
      "Unknown angle mode " ++ Text.quoted text ++ " (use deg, rad or grad)"
  | fractionalIndex shown => "Memory index must be a whole number, got " ++ shown
  | invalidFunctionName name =>
      "Invalid function name " ++ Text.quoted name ++ ": use letters, digits and underscores"
  | reservedFunctionName name => "Function name " ++ Text.quoted name ++ " is reserved"
  | duplicateFunction name => "Function " ++ name ++ " already exists"
  | invalidAssignment equation => "Left side of " ++ equation ++ " must be a variable name"
  | invalidVariableName name => "Invalid variable name " ++ Text.quoted name
  | invalidConstantName name => "Invalid constant name " ++ Text.quoted name
  | selfReference name => "Variable " ++ name ++ " cannot refer to itself"
  | builtInConstant name => "Constant " ++ name ++ " is built in"
  | usage text => "Usage: " ++ text
  | unknownListing what => "Unknown list target " ++ Text.quoted what
  | unknownClearing what => "Unknown clear target " ++ Text.quoted what
  | notEditing => "No expression is being edited"
  | emptyStash => "Stash is empty"
  | unknownForm name => "Unknown render mode " ++ Text.quoted name
  | nothingToPlot => "Nothing to plot"
  | emptyPlotRange => "Plot range is empty"
  | plotOutOfRange => "Cannot plot: function values out of range"
  | unterminatedUnit _ => "Unterminated unit bracket"
  | invalidCharacter c position =>
      "Unexpected character " ++ Text.quoted (String.ofList [c]) ++ " at position "
        ++ number position
  | unexpected expectation found position =>
      expectationText expectation ++ " at position " ++ number position ++ ", found "
        ++ foundText found
  | invalidUnitDescriptor text _ => "Invalid unit descriptor [" ++ text ++ "]"
  | emptyUnitDescriptor _ => "Empty unit descriptor []"
  | repeatedEquals _ => "Invalid equation format: more than one '='"
  | notAnExpression => "Expected an expression, not a statement"
  | unknownVariable name => "Variable " ++ name ++ " not found"
  | unknownMemory index =>
      "Memory index " ++ String.ofList (Number.integerText index) ++ " not found"
  | unknownUnit symbol => "Unit " ++ symbol ++ " was not found"
  | unknownCatalog name => "Unit catalog " ++ name ++ " not found"
  | unknownFunction name => "Function " ++ name ++ " not found"
  | unknownConstant name => "Constant " ++ name ++ " not found"
  | cyclicVariable name => "Variable " ++ name ++ " refers to itself"
  | cyclicFunction callers name =>
      "Function " ++ name ++ " calls itself ("
        ++ String.intercalate " -> " (callers ++ [name]) ++ ")"
  | resolutionTooDeep limit => "Maximum resolution depth exceeded (" ++ number limit ++ ")"
  | statementEvaluated kind => kind ++ " is a statement and cannot be evaluated"
  | invalidRandomName name =>
      "Invalid random variable " ++ name ++ ": end it with 'i' (integer) or 'd' (decimal)"
  | functionNotImplemented name => "Function " ++ name ++ " is not implemented"
  | operatorOnUnits operator => "Units cannot be combined with " ++ operator
  | notInvertible what => "cannot invert " ++ what
  | notAnEquation text => Text.quoted text ++ " is not an equation"
  | noSymbolicForm kind => kind ++ " has no symbolic form"
  | noUnitRelation left operator right =>
      "No evaluator found for " ++ left ++ operator ++ right
  | relationOnDimensionless => "Relations cannot be declared on the dimensionless unit"
  | invalidDescriptor line => "Invalid descriptor: " ++ line
  | numericOperand line =>
      "Invalid descriptor: " ++ line ++ " (only the second operand may be a number)"
  | emptyUnitFile => "Unit file is empty"
  | relationForm equation =>
      "Relation must have the form a*b=c or a/b=c, got " ++ equation
  | emptyUnitSymbol => "Unit symbol may not be empty"
  | missingBatchUnit symbol catalog =>
      "Unit " ++ symbol ++ " was not found while finalizing catalog " ++ catalog
  | missingUnit symbol => "Unit " ++ symbol ++ " was not found"
  | batchFinished catalog => "Catalog " ++ catalog ++ " was already finalized"
  | functionWithoutBody name => "Function " ++ name ++ " has no body"
  | invalidDefault name line => "Invalid default binding in " ++ name ++ ": " ++ line
  | noSingleVariable equation =>
      "Equation " ++ equation ++ " must have a single variable on one side"
  | targetNotFound name => "Variable " ++ name ++ " was not found in function"
  | targetNotUnique name => "Variable " ++ name ++ " was found more than once"

end Failure

/-- A computation in two parts succeeds when both do. -/
theorem bind_eq_ok {Fault α β : Type} {first : Except Fault α} {rest : α -> Except Fault β}
    {result : β} :
    (first >>= rest) = .ok result <-> ∃ value, first = .ok value ∧ rest value = .ok result := by
  constructor
  · intro succeeded
    cases first with
    | error failure => cases succeeded
    | ok value => exact ⟨value, rfl, succeeded⟩
  · rintro ⟨value, rfl, succeeded⟩
    exact succeeded

/-- A computation in two parts fails in one of them. -/
theorem bind_eq_error {Fault α β : Type} {first : Except Fault α} {rest : α -> Except Fault β}
    {failure : Fault} :
    (first >>= rest) = .error failure <->
      first = .error failure ∨ ∃ value, first = .ok value ∧ rest value = .error failure := by
  cases first with
  | error found =>
      constructor
      · intro failed
        cases failed
        exact Or.inl rfl
      · rintro (same | ⟨_, impossible, _⟩)
        · cases same
          rfl
        · cases impossible
  | ok value =>
      constructor
      · intro failed
        exact Or.inr ⟨value, rfl, failed⟩
      · rintro (impossible | ⟨_, same, failed⟩)
        · cases impossible
        · cases same
          exact failed

/-- A changed result comes from a result. -/
theorem map_eq_ok {α β : Type} {computation : Except Failure α} {change : α -> β} {result : β} :
    computation.map change = .ok result <->
      ∃ value, computation = .ok value ∧ change value = result := by
  cases computation with
  | error failure => exact ⟨nofun, fun ⟨_, impossible, _⟩ => nomatch impossible⟩
  | ok value =>
      refine ⟨fun same => ⟨value, rfl, Except.ok.inj same⟩, ?_⟩
      rintro ⟨_, same, rfl⟩
      cases same
      rfl

/-- A result that is known is the outcome. -/
theorem eq_ok_of_toOption {Fault α : Type} {computation : Except Fault α} {result : α}
    (known : computation.toOption = some result) : computation = .ok result := by
  cases computation with
  | error failure => cases known
  | ok value => exact congrArg Except.ok (Option.some.inj known)

/-- A computation that has a result is the result it has. -/
theorem eq_ok_of_isSome {α : Type} {computation : Except Failure α} (fallback : α)
    (succeeds : computation.toOption.isSome) :
    computation = .ok (computation.toOption.getD fallback) := by
  cases computation with
  | error failure => cases succeeds
  | ok value => rfl

/-- What is left of a computation once its first part has succeeded. -/
theorem bind_eq_of_ok {Fault α β : Type} {first : Except Fault α} {rest : α -> Except Fault β}
    {value : α} (succeeded : first = .ok value) : (first >>= rest) = rest value := by
  rw [succeeded]
  rfl

end QuantityCalculus
