import QuantityCalculus.Number.Generator
import QuantityCalculus.Term.Basic

namespace QuantityCalculus
namespace Term

/-!
Terms that are zero for every choice of their symbols.

The sums, products and powers of a term can be carried out in a field with a
prime number of members.  Everything else (symbols, functions, powers with
other exponents) stands for members of the field that are drawn at random.  A
term that is zero as a quotient of polynomials is zero there whatever is drawn;
any other term is zero by an accident that is next to impossible.  So a term
vanishes here when it is zero for two draws.  A term with rounded numbers never
counts as zero.
-/

/-- The number of members of the field, a prime. -/
def fieldSize : Nat := 2305843009213693951

/-- A power in the field by squaring; `bound` exceeds the bits of the exponent. -/
def fieldPower : Nat -> Nat -> Nat -> Nat
  | 0, _, _ => 1
  | bound + 1, base, exponent =>
      if exponent = 0 then 1
      else
        let square := fieldPower bound (base * base % fieldSize) (exponent / 2)
        if exponent % 2 = 1 then base * square % fieldSize else square

/-- A power in the field; zero has no powers with negative exponents. -/
def fieldRaise? (base : Nat) (exponent : Int) : Option Nat :=
  let count := exponent.natAbs % (fieldSize - 1)
  let bound := 64
  if 0 ≤ exponent then
    some (if base = 0 && exponent ≠ 0 then 0 else fieldPower bound base count)
  else if base = 0 then none
  else some (fieldPower bound (fieldPower bound base count) (fieldSize - 2))

/-- The members of the field that the parts of a term stand for. -/
structure Draw where
  /-- The exponent by which every symbol is a power, so that it has all roots that occur. -/
  degree : Nat
  member : Term -> Nat

/-- The exact exponent of a power. -/
def exactExponent? : Term -> Option Ratio
  | .number (.exact ratio) => some ratio
  | _ => none

/-- The member of the field that a term stands for. -/
def residue? (draw : Draw) : Term -> Option Nat
  | .number (.exact ratio) => do
      let inverse ← fieldRaise? (ratio.denominator % fieldSize) (-1)
      let top := (ratio.numerator % (fieldSize : Int)).toNat
      return top * inverse % fieldSize
  | .number (.rounded _) | .undefined | .unbounded | .infinite _ => none
  | .symbol name => fieldRaise? (draw.member (.symbol name)) draw.degree
  | .plus a b => do return ((← a.residue? draw) + (← b.residue? draw)) % fieldSize
  | .times a b => do return ((← a.residue? draw) * (← b.residue? draw)) % fieldSize
  | .power a b =>
      match a, exactExponent? b with
      | .symbol name, some ratio =>
          fieldRaise? (draw.member (.symbol name))
            (ratio.numerator * (draw.degree / ratio.denominator : Nat))
      | a, some ratio =>
          if ratio.isWhole then do fieldRaise? (← a.residue? draw) ratio.numerator
          else
            let root := Term.power a (ofRatio ⟨1, ratio.denominator⟩)
            fieldRaise? (draw.member root) ratio.numerator
      | a, none => some (draw.member (.power a b))
  | term => some (draw.member term)

/-- The parts of a term that stand for members of the field by themselves. -/
def atoms : Term -> List Term
  | .number _ | .undefined | .unbounded | .infinite _ => []
  | .plus a b | .times a b => a.atoms ++ b.atoms
  | .power a b =>
      match a, exactExponent? b with
      | .symbol name, some _ => [.symbol name]
      | a, some ratio =>
          if ratio.isWhole then a.atoms
          else [.power a (ofRatio ⟨1, ratio.denominator⟩)]
      | a, none => [.power a b]
  | term => [term]

/-- The denominators of the exponents of symbols. -/
def rootDegrees : Term -> List Nat
  | .plus a b | .times a b => a.rootDegrees ++ b.rootDegrees
  | .power a b =>
      match exactExponent? b with
      | some ratio => ratio.denominator :: a.rootDegrees
      | none => []
  | _ => []

/-- The members of the field drawn for some terms. -/
def drawMembers : List Term -> Generator -> List (Term × Nat) × Generator
  | [], generator => ([], generator)
  | term :: rest, generator =>
      let drawn := generator.step
      let (members, last) := drawMembers rest drawn
      ((term, drawn.word % fieldSize) :: members, last)

/-- A draw for the parts of a term. -/
def draw (term : Term) (generator : Generator) : Draw × Generator :=
  let (members, generator) := drawMembers term.atoms.eraseDups generator
  let degree := term.rootDegrees.foldl Nat.lcm 1
  (⟨degree, fun part => (members.lookup part).getD 1⟩, generator)

/-- A term is zero for every choice of its symbols. -/
def vanishes (term : Term) : Bool :=
  let (first, generator) := term.draw Generator.initial
  let (second, _) := term.draw generator
  term.residue? first == some 0 && term.residue? second == some 0

end Term
end QuantityCalculus
