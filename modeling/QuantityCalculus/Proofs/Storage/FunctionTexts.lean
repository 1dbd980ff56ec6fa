import QuantityCalculus.Proofs.Grammar.Recognition
import QuantityCalculus.Proofs.Runs
import QuantityCalculus.Proofs.Storage.Loading
import QuantityCalculus.Proofs.Storage.TopLevel
import QuantityCalculus.Storage.Functions

namespace QuantityCalculus

/-!
# Functions read from their texts

A text that is no function is refused for its name, its wording or its form, and each of
these refusals is passed over when all functions are loaded.  So loading never stops at a
text: it ends with the functions of exactly those texts that can be read.  Whether a text can
be read does not depend on the name that it is kept under.
-/

variable {R : Type} [Scalar R]

/-! ## Refusals that are passed over -/

/-- Whatever failure the result is, it is passed over when functions are loaded. -/
abbrev PassedOver {α : Type} (result : Except Failure α) : Prop :=
  FailsOnly (FileTree.isPassedOver · = true) result

namespace Source

theorem passedOver_prepare (source : List Char) : PassedOver (prepare source) := by
  unfold prepare
  dsimp only
  split
  · exact .fault rfl
  split
  · exact .fault rfl
  split
  · exact .fault rfl
  · exact .ok _

theorem passedOver_tokensFrom (taken position : Nat) (previous : Option Lexeme)
    (text : List Char) : PassedOver (tokensFrom taken position previous text) := by
  induction text generalizing taken position previous with
  | nil =>
      rw [tokensFrom]
      exact .ok []
  | cons c rest inductionHypothesis =>
      cases taken with
      | succ taken => exact inductionHypothesis taken _ previous
      | zero =>
          rw [tokensFrom]
          split
          · dsimp only
            split
            · exact .fault rfl
            · exact (inductionHypothesis _ _ _).map _
          · split
            · exact .fault rfl
            · exact inductionHypothesis _ _ _
            · exact (inductionHypothesis _ _ _).map _

/-- The reader refuses statements for their wording, or for their depth. -/
theorem passedOver_statement (stop : Nat) (tokens : Tokens) :
    PassedOver (statement (R := R) stop tokens) := by
  intro failure failed
  have approximates : Approximates (statement (R := R) stop tokens) _ :=
    statement_approximates (Nat.le_refl nestingLimit) tokens
  rcases approximates with deep | ⟨_, wording⟩
  · cases deep.symm.trans failed
    rfl
  · rw [FileTree.isPassedOver, wording failure failed]
    rfl

theorem passedOver_parseExpression (source : String) :
    PassedOver (parseExpression source : Except Failure (Expr R)) := by
  refine FailsOnly.bind ?_ fun expr => ?_
  · exact (passedOver_prepare _).bind fun text =>
      (passedOver_tokensFrom 0 0 none text).bind fun tokens => passedOver_statement _ tokens
  · split
    · exact .fault rfl
    · exact .ok expr

end Source

theorem passedOver_readDefaults (function : String) (lines : List String)
    (defaults : Table (Expr R)) : PassedOver (readDefaults function lines defaults) := by
  induction lines generalizing defaults with
  | nil => exact .ok defaults
  | cons line rest inductionHypothesis =>
      rw [readDefaults]
      split
      · exact .fault rfl
      · exact (Source.passedOver_parseExpression _).bind fun expr => inductionHypothesis _

theorem FunctionDefinition.passedOver_parse (name text : String) :
    PassedOver (FunctionDefinition.parse name text : Except Failure (FunctionDefinition R)) := by
  unfold FunctionDefinition.parse
  split
  · exact .fault rfl
  · exact (Source.passedOver_parseExpression _).bind fun body =>
      (passedOver_readDefaults name _ []).bind fun defaults => .ok _

theorem passedOver_validFunctionName (name : String) : PassedOver (validFunctionName name) := by
  unfold validFunctionName
  split
  · exact .fault rfl
  split
  · exact .fault rfl
  · exact .ok _

/-! ## The name of a text -/

theorem readDefaults_of_name {name : String} (other : String) {lines : List String}
    {defaults found : Table (Expr R)} (read : readDefaults name lines defaults = .ok found) :
    readDefaults other lines defaults = .ok found := by
  induction lines generalizing defaults with
  | nil => exact read
  | cons line rest inductionHypothesis =>
      rw [readDefaults] at read ⊢
      split at read
      · cases read
      · rcases bind_eq_ok.mp read with ⟨expr, parsed, further⟩
        exact (bind_eq_of_ok parsed).trans (inductionHypothesis further)

/-- What can be read under one name is the same function under any other. -/
theorem FunctionDefinition.parse_of_name {name text : String} (other : String)
    {definition : FunctionDefinition R}
    (parsed : FunctionDefinition.parse name text = .ok definition) :
    FunctionDefinition.parse other text = .ok definition := by
  unfold FunctionDefinition.parse at parsed ⊢
  split at parsed
  · cases parsed
  · rcases bind_eq_ok.mp parsed with ⟨body, read, parsed⟩
    rcases bind_eq_ok.mp parsed with ⟨defaults, readAll, parsed⟩
    exact (bind_eq_of_ok read).trans
      ((bind_eq_of_ok (readDefaults_of_name other readAll)).trans parsed)

/-! ## All functions of a tree -/

namespace FileTree

/-- The function that is kept under a name, if its text is not refused. -/
def function? (tree : FileTree) (name : String) : Option (FunctionDefinition R) :=
  (tree.text? (functionPath name)).bind fun content =>
    (do validFunctionName name; FunctionDefinition.parse name content : Except Failure _).toOption

variable {tree : FileTree} {name : String}

/-- A text is loaded, or it is passed over. -/
theorem loadFunction_cases {content : String}
    (kept : tree.entry? (functionPath name) = some (.text content)) (store : FunctionStore R) :
    (∃ failure, tree.loadFunction store name = .error (.failure failure) ∧
        isPassedOver failure = true ∧ tree.function? (R := R) name = none) ∨
      ∃ definition, tree.loadFunction store name = .ok (store.set name definition) ∧
        tree.function? name = some definition := by
  have read : (tree.function? name : Option (FunctionDefinition R)) =
      (do
        validFunctionName name
        FunctionDefinition.parse name content : Except Failure _).toOption := by
    rw [function?, text?, kept]
    rfl
  rw [loadFunction, kept, read]
  dsimp only
  rw [FunctionStore.defineText]
  cases valid : validFunctionName name with
  | error failure =>
      exact Or.inl ⟨failure, rfl, passedOver_validFunctionName name failure valid, rfl⟩
  | ok =>
      cases parsed : (FunctionDefinition.parse name content :
          Except Failure (FunctionDefinition R)) with
      | error failure =>
          exact Or.inl ⟨failure, rfl,
            FunctionDefinition.passedOver_parse (R := R) name content failure parsed, rfl⟩
      | ok definition => exact Or.inr ⟨definition, rfl, rfl⟩

/-- Loading ends with the functions of all texts that can be read. -/
theorem exists_loadFunctions {names : List String}
    (texts : forall name, name ∈ names -> ∃ content,
      tree.entry? (functionPath name) = some (.text content)) (store : FunctionStore R) :
    ∃ result count, tree.loadFunctions names store = .ok (result, count) ∧
      forall name, result.get? name =
        if name ∈ names then (tree.function? name).or (store.get? name) else store.get? name := by
  induction names generalizing store with
  | nil => exact ⟨store, 0, rfl, fun name => rfl⟩
  | cons head rest inductionHypothesis =>
      have further := inductionHypothesis fun name member =>
        texts name (List.mem_cons_of_mem _ member)
      rcases texts head List.mem_cons_self with ⟨content, kept⟩
      rcases loadFunction_cases kept store with
        ⟨failure, refused, passed, nothing⟩ | ⟨definition, loaded, read⟩
      · rcases further store with ⟨result, count, rest, found⟩
        refine ⟨result, count, ?_, fun name => ?_⟩
        · rw [loadFunctions, refused]
          simp only [passed, if_true]
          exact rest
        · rw [found name]
          by_cases here : name = head
          · subst here
            simp [nothing]
          · simp [here]
      · rcases further (store.set head definition) with ⟨result, count, rest, found⟩
        refine ⟨result, count + 1, ?_, fun name => ?_⟩
        · rw [loadFunctions, loaded]
          exact (bind_eq_of_ok rest).trans rfl
        · rw [found name, Table.get?_set]
          by_cases here : head = name
          · subst here
            simp [read]
          · simp [here, Ne.symm here]

theorem functionPath_inj {other : String} (same : functionPath name = functionPath other) :
    name = other :=
  (String.append_left_inj functionEnding).mp same

/-- Loading stops at a name under which nothing is kept. -/
theorem loadFunctions_missing {names : List String} (member : name ∈ names)
    (absent : tree.entry? (functionPath name) = none)
    (texts : forall other, other ∈ names -> other ≠ name -> ∃ content,
      tree.entry? (functionPath other) = some (.text content)) (store : FunctionStore R) :
    tree.loadFunctions names store = .error (.failure (.unknownFunction name)) := by
  have missing : forall store : FunctionStore R,
      tree.loadFunction store name = .error (.failure (.unknownFunction name)) := by
    intro store
    rw [loadFunction, absent]
  induction names generalizing store with
  | nil => cases member
  | cons head rest inductionHypothesis =>
      by_cases here : head = name
      · subst here
        rw [loadFunctions, missing]
        rfl
      · have later := (List.mem_cons.mp member).resolve_left (Ne.symm here)
        have further := inductionHypothesis later fun other inside =>
          texts other (List.mem_cons_of_mem _ inside)
        rcases texts head List.mem_cons_self here with ⟨content, kept⟩
        rcases loadFunction_cases kept store with ⟨failure, refused, passed, _⟩ | ⟨_, loaded, _⟩
        · rw [loadFunctions, refused]
          simp only [passed, if_true]
          exact further store
        · rw [loadFunctions, loaded]
          exact (congrArg (· >>= _) (further _)).trans rfl

/-- The functions that are listed are kept at the top of a tree.  A text that is called like the
ending and nothing else is listed under the ending. -/
theorem mem_functionNames
    (plain : forall path entry, tree.get? path = some entry -> IsPlainPath path) :
    name ∈ tree.functionNames <->
      (name ≠ "" ∧ IsPart (functionPath name) ∧
        ∃ entry, tree.get? (functionPath name) = some entry) ∨
      (name = functionEnding ∧ ∃ entry, tree.get? functionEnding = some entry) := by
  have listed : forall path, path ∈ tree.namesEnding "" functionEnding <->
      (IsPart path ∧ ∃ entry, tree.get? path = some entry) ∧
        hasEnding functionEnding path = true := by
    intro path
    rw [namesEnding, List.mem_filter, mem_namesIn_top plain]
  rw [functionNames, Text.mem_sortedBy, List.mem_map]
  simp only [listed]
  constructor
  · rintro ⟨path, ⟨⟨part, found⟩, ends⟩, rfl⟩
    by_cases bare : path = functionEnding
    · subst bare
      exact Or.inr ⟨if_pos rfl, found⟩
    · rcases exists_append_of_hasEnding ends with ⟨stemmed, rfl⟩
      rw [stem, if_neg bare, if_pos ends, take_append]
      refine Or.inl ⟨?_, part, found⟩
      rintro rfl
      exact bare (String.empty_append)
  · rintro (⟨named, part, found⟩ | ⟨rfl, found⟩)
    · have longer : functionPath name ≠ functionEnding := fun same =>
        named (String.append_eq_right_iff.mp same)
      have ends : hasEnding functionEnding (functionPath name) = true := hasEnding_append _ _
      refine ⟨functionPath name, ⟨⟨part, found⟩, ends⟩, ?_⟩
      rw [stem, if_neg longer, if_pos ends, functionPath, take_append]
    · have part : IsPart functionEnding := ⟨by decide, by decide, by decide⟩
      exact ⟨functionEnding, ⟨⟨part, found⟩, by decide⟩, if_pos rfl⟩

theorem isPart_functionPath_functionEnding : IsPart (functionPath functionEnding) :=
  ⟨by decide, by decide, by decide⟩

/-- Nothing is a function without a name. -/
theorem function?_nameless : (tree.function? "" : Option (FunctionDefinition R)) = none :=
  Option.bind_eq_none_iff.mpr fun _ _ => rfl

section

variable (plain : forall path entry, tree.get? path = some entry -> IsPlainPath path)
  (texts : forall name, IsPart (functionPath name) ->
    tree.get? (functionPath name) ≠ some .directory)

include plain texts

/-- What is listed as a function is a text, unless it is not there. -/
theorem text_of_mem_functionNames (listed : name ∈ tree.functionNames)
    (there : name = functionEnding -> ∃ entry, tree.get? (functionPath name) = some entry) :
    IsPart (functionPath name) ∧
      ∃ content, tree.entry? (functionPath name) = some (.text content) := by
  have found : IsPart (functionPath name) ∧
      ∃ entry, tree.get? (functionPath name) = some entry := by
    rcases (mem_functionNames plain).mp listed with ⟨_, found⟩ | ⟨rfl, _⟩
    · exact found
    · exact ⟨isPart_functionPath_functionEnding, there rfl⟩
  rcases found with ⟨part, entry, found⟩
  refine ⟨part, ?_⟩
  rw [entry?_part part]
  cases entry with
  | text content => exact ⟨content, found⟩
  | directory => exact absurd found (texts name part)

/-- All functions of a tree are loaded whose texts can be read, if no directory is in the way. -/
theorem exists_loadAllFunctions
    (named : tree.get? functionEnding = none ∨
      ∃ entry, tree.get? (functionPath functionEnding) = some entry) :
    ∃ result count, tree.loadAllFunctions ([] : FunctionStore R) = .ok (result, count) ∧
      forall name definition, result.get? name = some definition <->
        IsPart (functionPath name) ∧ tree.function? name = some definition := by
  have kept : forall name, name ∈ tree.functionNames -> IsPart (functionPath name) ∧
      ∃ content, tree.entry? (functionPath name) = some (.text content) := by
    intro name listed
    refine text_of_mem_functionNames plain texts listed ?_
    rintro rfl
    rcases named with absent | there
    · rcases (mem_functionNames plain).mp listed with ⟨_, _, found⟩ | ⟨_, _, found⟩
      · exact found
      · cases absent.symm.trans found
    · exact there
  rcases exists_loadFunctions (fun name listed => (kept name listed).2)
    ([] : FunctionStore R) with ⟨result, count, loaded, found⟩
  refine ⟨result, count, loaded, fun name definition => ?_⟩
  rw [found name]
  split
  · rename_i listed
    rw [Table.get?, Option.or_none]
    exact (and_iff_right (kept name listed).1).symm
  · rename_i unlisted
    constructor
    · intro stored
      cases stored
    · rintro ⟨part, read⟩
      have someName : name ≠ "" := by
        rintro rfl
        cases function?_nameless.symm.trans read
      rw [function?, text?, entry?_part part] at read
      cases there : tree.get? (functionPath name) with
      | none =>
          rw [there] at read
          cases read
      | some entry =>
          exact absurd ((mem_functionNames plain).mpr (Or.inl ⟨someName, part, entry, there⟩))
            unlisted

/-- A text that is called like the ending and nothing else stops the loading of all functions,
unless there is a text of that name with the ending. -/
theorem loadAllFunctions_unnamed (bare : ∃ entry, tree.get? functionEnding = some entry)
    (absent : tree.get? (functionPath functionEnding) = none) :
    tree.loadAllFunctions ([] : FunctionStore R) =
      .error (.failure (.unknownFunction functionEnding)) := by
  refine loadFunctions_missing ((mem_functionNames plain).mpr (Or.inr ⟨rfl, bare⟩)) ?_
    (fun other listed different => ?_) []
  · rw [entry?_part isPart_functionPath_functionEnding, absent]
  · exact (text_of_mem_functionNames plain texts listed fun same => absurd same different).2

end

end FileTree
end QuantityCalculus
