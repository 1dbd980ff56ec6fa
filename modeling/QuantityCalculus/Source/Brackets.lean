namespace QuantityCalculus
namespace Source

/-!
Balance of brackets.

Three kinds of brackets have to nest properly; every other character is
ignored.  A fault is reported where it cannot be mended by what follows: at a
closing bracket that does not fit, or, when the text ends too early, at the
outermost bracket that was never closed.
-/

/-- The closing bracket that belongs to an opening one. -/
def closing? : Char -> Option Char
  | '(' => some ')'
  | '[' => some ']'
  | '{' => some '}'
  | _ => none

/-- The closing brackets. -/
def isClosing (c : Char) : Bool :=
  c == ')' || c == ']' || c == '}'

/--
The first fault in a text.  The brackets still open are given innermost first,
each as the closing bracket it waits for and its own position.
-/
def faultFrom? (waiting : List (Char × Nat)) (position : Nat) : List Char -> Option Nat
  | [] => waiting.getLast?.map Prod.snd
  | c :: rest =>
      match closing? c with
      | some close => faultFrom? ((close, position) :: waiting) (position + 1) rest
      | none =>
          if isClosing c then
            match waiting with
            | [] => some position
            | (close, _) :: waiting =>
                if c = close then faultFrom? waiting (position + 1) rest else some position
          else faultFrom? waiting (position + 1) rest

/-- The position of the fault in the brackets of a text, `none` for a balanced text. -/
def bracketFault? (text : List Char) : Option Nat :=
  faultFrom? [] 0 text

end Source
end QuantityCalculus
