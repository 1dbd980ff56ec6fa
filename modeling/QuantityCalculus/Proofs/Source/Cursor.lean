import QuantityCalculus.Proofs.Grammar.Soundness
import QuantityCalculus.Proofs.Source.Tiling

namespace QuantityCalculus
namespace Source

/-!
# Reading with a cursor

The productions hand on the tokens that are left.  None of them can look at a token that is not
there, each loop is given as many rounds as there are tokens, and the room for further levels
is handed down and never has to be given back.  A reader that moves a cursor through one list,
calls itself without a bound, and counts the levels up and down may fail in all these ways: it
may point outside the list, it may never return, and it may forget to count down.

Such a reader is described here, in the order in which it looks at the tokens.  Its failures
are of three kinds, so that pointing outside and being cut off are told from refusing a text.
What it does in front of some tokens is compared with what a production makes of them.
-/

/-! ## The reader -/

/-- What stands at a place of the list: a token, or the end. -/
structure Entry where
  lexeme? : Option Lexeme
  position : Nat
deriving DecidableEq, Repr

/-- The list of some tokens, with the end behind them. -/
def entries (stop : Nat) (tokens : Tokens) : List Entry :=
  tokens.map (fun token => ⟨some token.lexeme, token.position⟩) ++ [⟨none, stop⟩]

/-- A place in the list, and how many levels are open there, and were at most so far. -/
structure Cursor where
  index : Nat
  depth : Nat
  deepest : Nat
deriving DecidableEq, Repr

/-- Why a reader stops before its end. -/
inductive Halt where
  | refused (failure : Failure)
  /-- The cursor points to no entry of the list. -/
  | outside
  /-- The calls or rounds that were allowed are used up. -/
  | unfinished
deriving DecidableEq, Repr

/-- Reads something from a list, moving a cursor. -/
abbrev Scan (α : Type) := ReaderT (List Entry) (StateT Cursor (Except Halt)) α

/-- The cursor before anything is read. -/
def Cursor.start : Cursor :=
  ⟨0, 0, 0⟩

namespace Scan

variable {α β R : Type}

def halt (reason : Halt) : Scan α := fun _ _ =>
  .error reason

def refuse (failure : Failure) : Scan α :=
  halt (.refused failure)

/-- The entry at an index. -/
def entryAt (index : List Entry -> Cursor -> Nat) : Scan Entry := fun entries cursor =>
  match entries[index entries cursor]? with
  | some entry => .ok (entry, cursor)
  | none => .error .outside

def current : Scan Entry :=
  entryAt fun _ cursor => cursor.index

/-- The entry behind the current one, or the last one. -/
def following : Scan Entry :=
  entryAt fun entries cursor => min (cursor.index + 1) (entries.length - 1)

def move : Scan Unit := fun _ cursor =>
  .ok ((), { cursor with index := cursor.index + 1 })

/-- Passes the current entry, unless it is the end. -/
def advance : Scan Entry := do
  let entry ← current
  if entry.lexeme?.isSome then
    move
    return entry
  else return entry

def unexpected (expectation : Expectation) : Scan α := do
  let entry ← current
  refuse (.unexpected expectation (entry.lexeme?.map Lexeme.text) entry.position)

/-- The current entry is a symbol. -/
def check (c : Char) : Scan Bool := do
  let entry ← current
  return entry.lexeme? == some (.symbol c)

/-- Passes a symbol, if it is there. -/
def accept (c : Char) : Scan Bool := do
  if ← check c then
    let _ ← advance
    return true
  else return false

/-- Passes a symbol that has to be there. -/
def expect (c : Char) : Scan Unit := do
  if ← check c then
    let _ ← advance
    return ()
  else unexpected (.symbol (String.ofList [c]))

/-- Passes a name that has to be there. -/
def expectName : Scan String := do
  let entry ← current
  match entry.lexeme? with
  | some (.name word) =>
      let _ ← advance
      return word
  | _ => unexpected .name

/-- Opens a level. -/
def enter : Scan Unit := fun _ cursor =>
  let depth := cursor.depth + 1
  if nestingLimit < depth then .error (.refused (.tooDeeplyNested nestingLimit))
  else .ok ((), { cursor with depth, deepest := max cursor.deepest depth })

/-- Closes a level. -/
def leave : Scan Unit := fun _ cursor =>
  .ok ((), { cursor with depth := cursor.depth - 1 })

/-- Reads something on a level of its own. -/
def nested (inner : Scan α) : Scan α := do
  enter
  let value ← inner
  leave
  return value

section Expressions

variable [Scalar R]

/-- Operands behind a first one, as long as an operator stands before them. -/
def chainFrom (operand : Scan (Expr R)) (operator? : Lexeme -> Option Operator) :
    Nat -> Expr R -> Scan (Expr R)
  | 0, _ => halt .unfinished
  | rounds + 1, left => do
      let entry ← current
      match entry.lexeme?.bind operator? with
      | some op =>
          let _ ← advance
          let right ← operand
          chainFrom operand operator? rounds (.binary op left right)
      | none => return left

def chain (operand : Scan (Expr R)) (operator? : Lexeme -> Option Operator) (rounds : Nat) :
    Scan (Expr R) := do
  let first ← operand
  chainFrom operand operator? rounds first

/-- An expression with a symbol behind it. -/
def closedBy (c : Char) (expression : Scan (Expr R)) : Scan (Expr R) := do
  let inner ← expression
  expect c
  return inner

/-- An expression in parentheses. -/
def argument (expression : Scan (Expr R)) : Scan (Expr R) := do
  expect '('
  closedBy ')' expression

/-- The bindings of a call, up to the closing brace. -/
def bindingsFrom (expression : Scan (Expr R)) : Nat -> Scan (Arguments R)
  | 0 => halt .unfinished
  | rounds + 1 => do
      if ← check '\x7d' then return .nil
      else
        let word ← expectName
        expect '='
        let value ← expression
        if ← accept ';' then
          let more ← bindingsFrom expression rounds
          return .cons word value more
        else if ← accept ',' then
          let more ← bindingsFrom expression rounds
          return .cons word value more
        else return .cons word value .nil

/-- A call, behind its sign. -/
def call (expression : Scan (Expr R)) (rounds : Nat) : Scan (Expr R) := do
  let word ← expectName
  if ← accept '\x7b' then
    let arguments ← bindingsFrom expression rounds
    expect '\x7d'
    return .call word arguments
  else return .call word .nil

/-- An expression that starts with a word, behind the word. -/
def wordFrom (expression : Scan (Expr R)) (word : String) : Scan (Expr R) := do
  let opened ← check '('
  let indexed ← check '['
  if word = "frac" && opened then
    let x ← argument expression
    let y ← argument expression
    return .fraction x y
  else if word = "sqrt" && opened then
    let x ← argument expression
    return .sqrt x
  else if word = "root" && indexed then
    let _ ← advance
    let index ← closedBy ']' expression
    let x ← argument expression
    return .root x index
  else if word = "mem" then
    if ← accept '[' then
      let index ← closedBy ']' expression
      return .memAt index
    else return .mem
  else
    match FunctionKind.ofKeyword? word with
    | some kind =>
        if opened then
          let x ← argument expression
          return .func kind x
        else return .var word
    | none => return .var word

/-- An expression that starts with a sign. -/
def signFrom (expression : Scan (Expr R)) (rounds : Nat) : Scan (Expr R) := do
  if ← accept '(' then
    let x ← closedBy ')' expression
    return .paren x
  else if ← accept '|' then
    let x ← closedBy '|' expression
    return .abs x
  else if ← accept '$' then call expression rounds
  else unexpected .token

def primary (expression : Scan (Expr R)) (rounds : Nat) : Scan (Expr R) := do
  let entry ← current
  match entry.lexeme? with
  | some (.number spelling) =>
      let _ ← advance
      return .num (Number.readSpelling spelling)
  | some (.name word) =>
      let _ ← advance
      wordFrom expression word
  | _ => signFrom expression rounds

/-- The factorial signs and unit brackets behind an expression. -/
def marksFrom : Nat -> Expr R -> Scan (Expr R)
  | 0, _ => halt .unfinished
  | rounds + 1, expr => do
      if ← accept '!' then marksFrom rounds (.factorial expr)
      else
        let entry ← current
        match entry.lexeme? with
        | some (.unit content) =>
            let _ ← advance
            match unitMark content entry.position with
            | .ok unit => marksFrom rounds (.marked unit expr)
            | .error failure => refuse failure
        | _ => return expr

def power (expression unary : Scan (Expr R)) (rounds : Nat) : Scan (Expr R) := do
  let first ← primary expression rounds
  let base ← marksFrom rounds first
  if ← accept '^' then
    let exponent ← unary
    return .binary .power base exponent
  else return base

mutual

/-- An expression, when the calls may be nested so deeply. -/
def expression : Nat -> Scan (Expr R)
  | 0 => halt .unfinished
  | calls + 1 => nested (chain (chain (unary calls) multiplicative? calls) additive? calls)

/-- A unary, when the calls may be nested so deeply. -/
def unary : Nat -> Scan (Expr R)
  | 0 => halt .unfinished
  | calls + 1 => nested do
      if ← accept '-' then
        let operand ← unary calls
        return negated operand
      else if ← accept '+' then unary calls
      else power (expression calls) (unary calls) calls

end

/-- A declaration begins with a name and its sign. -/
def startsDeclaration : Scan Bool := do
  let entry ← current
  match entry.lexeme? with
  | some (.name _) =>
      let next ← following
      return next.lexeme? == some .declare
  | _ => return false

/-- An expression or an equation. -/
def equation (expression : Scan (Expr R)) : Scan (Expr R) := do
  let left ← expression
  if ← accept '=' then
    let right ← expression
    if ← check '=' then
      let entry ← current
      refuse (.repeatedEquals entry.position)
    else return .equation left right
  else return left

/-- A statement, whatever stands behind it. -/
def opening (expression : Scan (Expr R)) : Scan (Expr R) := do
  if ← accept '@' then
    let word ← expectName
    return .target word
  else if ← startsDeclaration then
    let entry ← advance
    let _ ← advance
    let value ← expression
    return .declaration ((entry.lexeme?.map Lexeme.text).getD "") value
  else equation expression

/-- A statement that ends with the list, when the calls may be nested so deeply. -/
def statement (calls : Nat) : Scan (Expr R) := do
  let expr ← opening (expression calls)
  let entry ← current
  match entry.lexeme? with
  | none => return expr
  | some _ => unexpected .token

end Expressions

/-! ## What is left before the cursor -/

/-- The entry that the first of some tokens makes. -/
def front (stop : Nat) : Tokens -> Entry
  | [] => ⟨none, stop⟩
  | token :: _ => ⟨some token.lexeme, token.position⟩

/-- The cursor stands in front of the tokens that are left, inside the list, with room for some
further levels, and there were never more levels than are allowed. -/
structure Before (tokens rest : Tokens) (room : Nat) (cursor : Cursor) : Prop where
  left : tokens.drop cursor.index = rest
  inside : cursor.index ≤ tokens.length
  depth : cursor.depth + room = nestingLimit
  deepest : cursor.deepest ≤ nestingLimit

/-- What is refused is nested too deeply, or stands at an entry of the list. -/
def RefusedAt (entries : List Entry) (failure : Failure) : Prop :=
  failure.kind = .validation ∨
    (failure.kind = .parse ∧
      ∃ entry, entry ∈ entries ∧ failure.position? = some entry.position)

section

variable {stop : Nat} {tokens rest : Tokens} {room : Nat} {cursor : Cursor}

theorem getElem?_entries (before : Before tokens rest room cursor) :
    (entries stop tokens)[cursor.index]? = some (front stop rest) := by
  have left := before.left
  rw [entries]
  cases rest with
  | nil =>
      have last : cursor.index = tokens.length :=
        Nat.le_antisymm before.inside (List.drop_eq_nil_iff.mp left)
      rw [last, List.getElem?_append_right (by simp), List.length_map, Nat.sub_self]
      rfl
  | cons token further =>
      have first : tokens[cursor.index]? = some token := by
        rw [← List.head?_drop, left, List.head?_cons]
      have below := (List.getElem?_eq_some_iff.mp first).1
      rw [List.getElem?_append_left (by rwa [List.length_map]), List.getElem?_map, first]
      rfl

theorem current_eq (before : Before tokens rest room cursor) :
    current (entries stop tokens) cursor = .ok (front stop rest, cursor) := by
  rw [current, entryAt, getElem?_entries before]

theorem front_mem (before : Before tokens rest room cursor) :
    front stop rest ∈ entries stop tokens :=
  List.mem_of_getElem? (getElem?_entries before)

theorem Before.length_eq (before : Before tokens rest room cursor) :
    cursor.index + rest.length = tokens.length := by
  have counted := congrArg List.length before.left
  rw [List.length_drop] at counted
  have inside := before.inside
  omega

theorem Before.next {token : Token} {further : Tokens}
    (before : Before tokens (token :: further) room cursor) :
    Before tokens further room { cursor with index := cursor.index + 1 } where
  left := by
    have left := congrArg List.tail before.left
    rwa [List.tail_drop] at left
  inside := by
    have counted := before.length_eq
    rw [List.length_cons] at counted
    exact counted ▸ Nat.add_le_add_left (Nat.le_add_left 1 _) _
  depth := before.depth
  deepest := before.deepest

/-- Behind a token there is always an entry to look at. -/
theorem following_eq {token : Token} {further : Tokens}
    (before : Before tokens (token :: further) room cursor) :
    following (entries stop tokens) cursor = .ok (front stop further, cursor) := by
  have within := before.next.inside
  have last : min (cursor.index + 1) ((entries stop tokens).length - 1) = cursor.index + 1 := by
    rw [entries, List.length_append, List.length_map]
    exact Nat.min_eq_left within
  rw [following, entryAt, last, getElem?_entries before.next]

end

/-! ## Following a production -/

section

variable {entries : List Entry} {cursor : Cursor} {first : Scan α}

theorem run_bind_of_ok {value : α} {after : Cursor}
    (run : first entries cursor = .ok (value, after)) (next : α -> Scan β) :
    (first >>= next) entries cursor = next value entries after := by
  change (first entries cursor >>= fun found => next found.1 entries found.2) = _
  rw [run]
  rfl

theorem run_bind_of_error {reason : Halt} (run : first entries cursor = .error reason)
    (next : α -> Scan β) : (first >>= next) entries cursor = .error reason := by
  change (first entries cursor >>= fun found => next found.1 entries found.2) = _
  rw [run]
  rfl

end

/-- A run has the result of a production: it stops in front of the tokens that the production
leaves, on the level where it began, or it refuses what the production refuses. -/
def Agrees (stop : Nat) (tokens : Tokens) (room : Nat) (rest : Tokens)
    (run : Except Halt (α × Cursor)) : Except Failure (α × Tokens) -> Prop
  | .ok (value, further) => further.length ≤ rest.length ∧
      ∃ after, run = .ok (value, after) ∧ Before tokens further room after
  | .error failure => run = .error (.refused failure) ∧ RefusedAt (entries stop tokens) failure

/-- A run that starts later leaves fewer tokens than there were. -/
theorem Agrees.earlier {stop room : Nat} {tokens rest further : Tokens}
    {run : Except Halt (α × Cursor)} {result : Except Failure (α × Tokens)}
    (agrees : Agrees stop tokens room further run result) (fewer : further.length ≤ rest.length) :
    Agrees stop tokens room rest run result := by
  rcases result with failure | ⟨value, last⟩
  · exact agrees
  · exact ⟨Nat.le_trans agrees.1 fewer, agrees.2⟩

/-- Wherever the tokens `rest` are left, the run of a reader has the result of a production. -/
def Follows (stop : Nat) (tokens : Tokens) (room : Nat) (rest : Tokens) (scan : Scan α)
    (result : Except Failure (α × Tokens)) : Prop :=
  forall cursor, Before tokens rest room cursor ->
    Agrees stop tokens room rest (scan (entries stop tokens) cursor) result

namespace Follows

variable {stop : Nat} {tokens rest : Tokens} {room : Nat}

theorem pure (value : α) :
    Follows stop tokens room rest (Pure.pure value) (.ok (value, rest)) :=
  fun cursor before => ⟨Nat.le_refl _, cursor, rfl, before⟩

theorem bind_error {first : Scan α} {failure : Failure}
    (one : Follows stop tokens room rest first (.error failure)) (next : α -> Scan β) :
    Follows stop tokens room rest (first >>= next) (.error failure) :=
  fun cursor before =>
    ⟨run_bind_of_error (one cursor before).1 next, (one cursor before).2⟩

theorem bind_ok {first : Scan α} {next : α -> Scan β} {value : α} {further : Tokens}
    {result : Except Failure (β × Tokens)}
    (one : Follows stop tokens room rest first (.ok (value, further)))
    (two : further.length ≤ rest.length -> Follows stop tokens room further (next value) result) :
    Follows stop tokens room rest (first >>= next) result := by
  intro cursor before
  rcases one cursor before with ⟨fewer, after, run, later⟩
  rw [run_bind_of_ok run]
  exact (two fewer after later).earlier fewer

/-- A reader in two parts follows a production in two parts. -/
theorem bind {first : Scan α} {next : α -> Scan β} {result : Except Failure (α × Tokens)}
    {more : α × Tokens -> Except Failure (β × Tokens)}
    (one : Follows stop tokens room rest first result)
    (two : forall value further, further.length ≤ rest.length ->
      Follows stop tokens room further (next value) (more (value, further))) :
    Follows stop tokens room rest (first >>= next) (result >>= more) := by
  rcases result with failure | ⟨value, further⟩
  · exact one.bind_error next
  · exact one.bind_ok (two value further)

/-! ### Single entries -/

theorem current_bind {next : Entry -> Scan β} {result : Except Failure (β × Tokens)}
    (further : Follows stop tokens room rest (next (front stop rest)) result) :
    Follows stop tokens room rest (current >>= next) result := by
  intro cursor before
  rw [run_bind_of_ok (current_eq before)]
  exact further cursor before

theorem refuse {failure : Failure} (refused : RefusedAt (entries stop tokens) failure) :
    Follows stop tokens room rest (Scan.refuse failure : Scan α) (.error failure) :=
  fun _ _ => ⟨rfl, refused⟩

/-- The entry at the cursor is one of the list. -/
theorem listed {scan : Scan α} {result : Except Failure (α × Tokens)}
    (follows : front stop rest ∈ entries stop tokens ->
      Follows stop tokens room rest scan result) :
    Follows stop tokens room rest scan result :=
  fun cursor before => follows (front_mem before) cursor before

/-- The first of the tokens that are left can be passed. -/
theorem advance_bind {token : Token} {next : Entry -> Scan β}
    {result : Except Failure (β × Tokens)}
    (further : Follows stop tokens room rest (next ⟨some token.lexeme, token.position⟩) result) :
    Follows stop tokens room (token :: rest) (advance >>= next) result := by
  intro cursor before
  have run : advance (entries stop tokens) cursor =
      .ok (⟨some token.lexeme, token.position⟩, { cursor with index := cursor.index + 1 }) := by
    rw [advance, run_bind_of_ok (current_eq before)]
    rfl
  rw [run_bind_of_ok run]
  exact (further _ before.next).earlier (Nat.le_succ _)

theorem unexpected (expectation : Expectation) :
    Follows stop tokens room rest (Scan.unexpected expectation : Scan α)
      (.error (unexpectedAt stop expectation rest)) := by
  refine current_bind fun cursor before => ⟨?_, Or.inr ⟨?_, front stop rest, front_mem before, ?_⟩⟩
  all_goals cases rest <;> rfl

/-! ### Symbols and names -/

theorem isSymbol_front (c : Char) (rest : Tokens) :
    ((front stop rest).lexeme? == some (.symbol c)) = (afterSymbol? c rest).isSome := by
  rw [Bool.eq_iff_iff, beq_iff_eq, Option.isSome_iff_exists]
  constructor
  · intro here
    rcases rest with _ | ⟨⟨lexeme, position⟩, further⟩
    · cases here
    · cases here
      exact ⟨further, afterSymbol?_eq_some_iff.mpr ⟨position, rfl⟩⟩
  · rintro ⟨further, found⟩
    rcases afterSymbol?_eq_some_iff.mp found with ⟨position, rfl⟩
    rfl

theorem check_bind {c : Char} {next : Bool -> Scan β} {result : Except Failure (β × Tokens)}
    (further : Follows stop tokens room rest (next (afterSymbol? c rest).isSome) result) :
    Follows stop tokens room rest (check c >>= next) result := by
  rw [check, bind_assoc]
  refine current_bind ?_
  rw [isSymbol_front, pure_bind]
  exact further

/-- A symbol is passed or left, whichever the tokens say. -/
theorem accept_bind {c : Char} {next : Bool -> Scan β} {result : Except Failure (β × Tokens)}
    (taken : forall further, afterSymbol? c rest = some further ->
      further.length < rest.length -> Follows stop tokens room further (next true) result)
    (left : afterSymbol? c rest = none -> Follows stop tokens room rest (next false) result) :
    Follows stop tokens room rest (accept c >>= next) result := by
  rw [accept, bind_assoc]
  refine check_bind ?_
  cases found : afterSymbol? c rest with
  | none => exact left found
  | some further =>
      rcases afterSymbol?_eq_some_iff.mp found with ⟨position, rfl⟩
      simp only [Option.isSome_some, if_true, bind_assoc, pure_bind]
      exact advance_bind (taken further found (Nat.lt_succ_self _))

theorem expect_bind {c : Char} {next : Unit -> Scan β}
    {more : Tokens -> Except Failure (β × Tokens)}
    (two : forall further, further.length < rest.length ->
      Follows stop tokens room further (next ()) (more further)) :
    Follows stop tokens room rest (expect c >>= next) (afterSymbol stop c rest >>= more) := by
  rw [expect, bind_assoc, afterSymbol]
  refine check_bind ?_
  cases found : afterSymbol? c rest with
  | none =>
      have missing : Follows stop tokens room rest
          (Scan.unexpected (.symbol (String.ofList [c])) : Scan Unit) _ := unexpected _
      exact missing.bind_error next
  | some further =>
      rcases afterSymbol?_eq_some_iff.mp found with ⟨position, rfl⟩
      simp only [Option.isSome_some, if_true, bind_assoc, pure_bind]
      exact advance_bind (two further (Nat.lt_succ_self _))

theorem expectName : Follows stop tokens room rest Scan.expectName (nameFrom stop rest) := by
  refine current_bind ?_
  rcases rest with _ | ⟨⟨lexeme, position⟩, further⟩
  · exact unexpected .name
  · cases lexeme with
    | name word => exact advance_bind (pure word)
    | _ => exact unexpected .name

/-! ### Levels -/

theorem nested_zero (inner : Scan α) :
    Follows stop tokens 0 rest (nested inner) (.error (.tooDeeplyNested nestingLimit)) := by
  intro cursor before
  have full : nestingLimit < cursor.depth + 1 := Nat.lt_succ_of_le (Nat.le_of_eq before.depth.symm)
  exact ⟨run_bind_of_error (if_pos full) _, Or.inl rfl⟩

/-- A level that is opened is closed again. -/
theorem nested {inner : Scan α} {result : Except Failure (α × Tokens)}
    (within : Follows stop tokens room rest inner result) :
    Follows stop tokens (room + 1) rest (Scan.nested inner) result := by
  intro cursor before
  have depth : cursor.depth + 1 + room = nestingLimit := by
    rw [← before.depth, Nat.add_assoc, Nat.add_comm 1]
  have allowed : cursor.depth + 1 ≤ nestingLimit := depth ▸ Nat.le_add_right _ _
  have begun := within ⟨cursor.index, cursor.depth + 1, max cursor.deepest (cursor.depth + 1)⟩
    ⟨before.left, before.inside, depth, Nat.max_le.mpr ⟨before.deepest, allowed⟩⟩
  rw [Scan.nested, run_bind_of_ok (if_neg (Nat.not_lt.mpr allowed))]
  rcases result with failure | ⟨value, further⟩
  · exact ⟨run_bind_of_error begun.1 _, begun.2⟩
  · rcases begun with ⟨fewer, after, run, later⟩
    rw [run_bind_of_ok run]
    have last := later.depth
    exact ⟨fewer, { after with depth := after.depth - 1 }, rfl,
      ⟨later.left, later.inside, by dsimp only; omega, later.deepest⟩⟩

end Follows

end Scan

end Source
end QuantityCalculus
