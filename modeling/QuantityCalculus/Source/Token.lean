import QuantityCalculus.Failure
import QuantityCalculus.Number.Reading
import QuantityCalculus.Text.Identifier

namespace QuantityCalculus
namespace Source

/-!
Tokens of a prepared text.

A text is cut at each place into the longest token that can start there;
blanks separate tokens and are dropped.  The content of a bracket is one token,
taken as it stands up to the first closing bracket, because unit symbols follow
rules of their own.  Only after `root` and `mem` a bracket holds an ordinary
expression, and its brackets are then tokens like others.
-/

/-- What a token is. -/
inductive Lexeme where
  | number (spelling : List Char)
  | name (word : String)
  /-- The sign of a declaration. -/
  | declare
  | symbol (c : Char)
  /-- The content of a unit bracket. -/
  | unit (content : String)
deriving DecidableEq, Repr

/-- A token with the position of its first character. -/
structure Token where
  lexeme : Lexeme
  position : Nat
deriving DecidableEq, Repr

/-- The text of a token; for a unit bracket only its content. -/
def Lexeme.text : Lexeme -> String
  | .number spelling => String.ofList spelling
  | .name word => word
  | .declare => ":="
  | .symbol c => String.ofList [c]
  | .unit content => content

/-- Signs that operate on what stands beside them. -/
def isOperatorSign (c : Char) : Bool :=
  ['-', '+', '*', '/', '%', '^', '!', '='].contains c

/-- Signs that enclose, separate or introduce. -/
def isPunctuation (c : Char) : Bool :=
  ['(', ')', '[', ']', '{', '}', '|', '$', ';', ',', '@'].contains c

/-- The kind of a token, as listings name it. -/
def Lexeme.kindName : Lexeme -> String
  | .number _ => "NUM"
  | .name _ => "IDENT"
  | .declare => "DECL"
  | .symbol c => if isOperatorSign c then "OP" else "PUNCT"
  | .unit _ => "UNIT"

/-- After these words a bracket holds an index. -/
def opensIndex : Option Lexeme -> Bool
  | some (.name word) => word == "root" || word == "mem"
  | _ => false

/--
What starts with a character, given the text after it: a token or a blank, and
the number of further characters that belong to it.
-/
def startsWith? (c : Char) (rest : List Char) : Option (Option Lexeme × Nat) :=
  match Number.spellingLength (c :: rest) with
  | length + 1 => some (some (.number (c :: rest.take length)), length)
  | 0 =>
      if Text.isNameStart c then
        let tail := rest.takeWhile Text.isNameCharacter
        some (some (.name (String.ofList (c :: tail))), tail.length)
      else if c = ':' && rest.head? == some '=' then some (some .declare, 1)
      else if isOperatorSign c || isPunctuation c then some (some (.symbol c), 0)
      else if Text.isBlank c then some (none, 0)
      else none

/--
The tokens of a text from a position on.  The first argument counts the
characters that belong to the token before, `previous` is that token.
-/
def tokensFrom : Nat -> Nat -> Option Lexeme -> List Char -> Except Failure (List Token)
  | _, _, _, [] => .ok []
  | taken + 1, position, previous, _ :: rest => tokensFrom taken (position + 1) previous rest
  | 0, position, previous, c :: rest =>
      if c = '[' && !opensIndex previous then
        let content := rest.takeWhile (· != ']')
        if content.length = rest.length then .error (.unterminatedUnit position)
        else
          let lexeme := Lexeme.unit (String.ofList content)
          (tokensFrom (content.length + 1) (position + 1) (some lexeme) rest).map
            (⟨lexeme, position⟩ :: ·)
      else
        match startsWith? c rest with
        | none => .error (.invalidCharacter c position)
        | some (none, taken) => tokensFrom taken (position + 1) previous rest
        | some (some lexeme, taken) =>
            (tokensFrom taken (position + 1) (some lexeme) rest).map (⟨lexeme, position⟩ :: ·)

/-- The tokens of a prepared text. -/
def tokenize (text : List Char) : Except Failure (List Token) :=
  tokensFrom 0 0 none text

end Source
end QuantityCalculus
