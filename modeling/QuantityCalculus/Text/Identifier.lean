namespace QuantityCalculus
namespace Text

/-!
Names of variables, constants and functions: a letter or underscore of ASCII,
then letters, digits and underscores.
-/

/-- Characters that may start a name. -/
def isNameStart (c : Char) : Bool :=
  c.isAlpha || c == '_'

/-- Characters that may continue a name. -/
def isNameCharacter (c : Char) : Bool :=
  c.isAlphanum || c == '_'

/-- A complete name. -/
def isName : List Char -> Bool
  | [] => false
  | c :: rest => isNameStart c && rest.all isNameCharacter

/-- A complete name, which may still carry the line feed that ended its line. -/
def isNameLine (text : List Char) : Bool :=
  isName text || (text.getLast? == some '\n' && isName text.dropLast)

/-- Whatever starts a name may also continue one. -/
theorem isNameCharacter_of_isNameStart {c : Char} (start : isNameStart c = true) :
    isNameCharacter c = true := by
  simp only [isNameStart, isNameCharacter, Char.isAlphanum, Bool.or_eq_true] at *
  exact start.elim (fun letter => Or.inl (Or.inl letter)) Or.inr

/-- The characters of ASCII can be tried one by one. -/
theorem exists_ascii {c : Char} (ascii : c.toNat < 128) :
    ∃ code : Fin 128, Char.ofNat code = c :=
  ⟨⟨c.toNat, ascii⟩, Char.ofNat_toNat c⟩

/-- Names are written in ASCII. -/
theorem ascii_of_isNameCharacter {c : Char} (character : isNameCharacter c = true) :
    c.toNat < 128 := by
  unfold isNameCharacter Char.isAlphanum Char.isAlpha Char.isUpper Char.isLower
    Char.isDigit at character
  simp only [Bool.or_eq_true, Bool.and_eq_true, decide_eq_true_eq, beq_iff_eq,
    UInt32.le_iff_toNat_le] at character
  rcases character with ((upper | lower) | digit) | rfl
  · exact Nat.lt_of_le_of_lt upper.2 (by decide)
  · exact Nat.lt_of_le_of_lt lower.2 (by decide)
  · exact Nat.lt_of_le_of_lt digit.2 (by decide)
  · decide

end Text
end QuantityCalculus
