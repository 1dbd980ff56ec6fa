namespace QuantityCalculus
namespace Text

/-!
Sets of characters given by ranges of code points.

The standard tables this library needs (white space, decimal digits, word
characters, printable characters, letter case) are all written as closed
ranges, so that one membership test serves every table and a table can be read
beside the standard that it records.
-/

/-- A set of characters as closed ranges of code points. -/
abbrev CharacterSet := List (Nat × Nat)

/-- A character belongs to the set when some range covers its code point. -/
def CharacterSet.covers (set : CharacterSet) (c : Char) : Bool :=
  set.any fun range => Nat.ble range.1 c.toNat && Nat.ble c.toNat range.2

theorem CharacterSet.covers_iff (set : CharacterSet) (c : Char) :
    set.covers c = true <-> ∃ range ∈ set, range.1 ≤ c.toNat ∧ c.toNat ≤ range.2 := by
  simp only [CharacterSet.covers, List.any_eq_true, Bool.and_eq_true, Nat.ble_eq]

end Text
end QuantityCalculus
