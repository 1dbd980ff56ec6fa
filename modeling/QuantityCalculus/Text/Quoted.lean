import QuantityCalculus.Text.Printable

namespace QuantityCalculus
namespace Text

/-!
Quoted texts inside messages.

A text is shown between single quotes, or between double quotes when it holds
a single quote and no double one.  The chosen quote and the backslash are
escaped, and so is every character that has no visible form of its own.
-/

/-- The last digits of a number in base sixteen, as many as asked for. -/
def hexDigits : Nat -> Nat -> List Char
  | 0, _ => []
  | count + 1, value => hexDigits count (value / 16) ++ [Nat.digitChar (value % 16)]

/-- The escape that names a character by its code point, in the shortest of three widths. -/
def codePointEscape (c : Char) : List Char :=
  if c.toNat < 256 then '\\' :: 'x' :: hexDigits 2 c.toNat
  else if c.toNat < 65536 then '\\' :: 'u' :: hexDigits 4 c.toNat
  else '\\' :: 'U' :: hexDigits 8 c.toNat

/-- One character inside the given quotes. -/
def quotedCharacter (quote c : Char) : List Char :=
  if c = quote || c = '\\' then ['\\', c]
  else if c = '\n' then ['\\', 'n']
  else if c = '\r' then ['\\', 'r']
  else if c = '\t' then ['\\', 't']
  else if isPrintable c then [c]
  else codePointEscape c

/-- The quote that a text is shown in. -/
def quoteFor (text : List Char) : Char :=
  if text.contains '\'' && !text.contains '"' then '"' else '\''

/-- The quoted form of a text. -/
def quotedChars (text : List Char) : List Char :=
  let quote := quoteFor text
  quote :: text.flatMap (quotedCharacter quote) ++ [quote]

/-- The quoted form of a string. -/
def quoted (text : String) : String :=
  String.ofList (quotedChars text.toList)

/-- A list of names, each in its quoted form. -/
def quotedNames (names : List String) : String :=
  "[" ++ String.intercalate ", " (names.map quoted) ++ "]"

end Text
end QuantityCalculus
