import QuantityCalculus.Number.Factor
import QuantityCalculus.Term.Sign

namespace QuantityCalculus
namespace Term

/-!
Sums, products, powers and absolute values in normal form.

A sum gathers equal terms and adds their coefficients; a product gathers equal
bases and adds their exponents; a number times a sum is multiplied out.  A root
of a power and a power of a power become one power where that holds for every
choice of positive symbols; in particular the root of an even power is a power
of an absolute value.  Exact numbers stay exact.

Infinite and undefined parts swallow what stands beside them: `1/0` is infinite
in no direction, and the difference or the quotient of infinities is undefined.

The four operations build on each other, so they count down a number of steps
that no term of moderate size uses up; without steps left, parts are only
put together.
-/

/-- Exact powers beyond this many bits are left as they are. -/
def exactBits : Nat := 16777216

/-- A power of a prime, or of any whole number, with whole part and root kept apart. -/
def rootParts (base : Nat) (exponent : Ratio) : List Term :=
  let outside := ofInt (Nat.pow base exponent.floor.toNat : Nat)
  if exponent.fraction = Ratio.zero then [outside]
  else [outside, .power (ofInt base) (ofRatio exponent.fraction)]

/-- The parts of a power of a positive whole number with a positive exponent. -/
def wholePowerParts (base : Nat) (exponent : Ratio) : List Term :=
  match Number.exactRoot? base exponent.denominator with
  | some root => [ofInt (Nat.pow root exponent.numerator.toNat : Nat)]
  | none =>
      let (primes, rest) := Number.smallFactors Number.smallPrimes base
      primes.flatMap (fun entry =>
          rootParts entry.1 (exponent.mul (Ratio.ofInt entry.2)))
        ++ (if rest = 1 then []
            else
              match Number.exactRoot? rest exponent.denominator with
              | some root => [ofInt (Nat.pow root exponent.numerator.toNat : Nat)]
              | none => rootParts rest exponent)

/-- The size of an exact power, in bits. -/
def powerBits (base : Ratio) (exponent : Nat) : Nat :=
  (base.numerator.natAbs.log2 + base.denominator.log2 + 1) * exponent

/-- The power of the imaginary unit. -/
def imaginaryPower (exponent : Int) : List Term :=
  match (exponent % 4).toNat with
  | 0 => []
  | 1 => [.imaginary]
  | 2 => [ofInt (-1)]
  | _ => [ofInt (-1), .imaginary]

/-- A power of minus one with a fraction as its exponent. -/
def minusOnePower (exponent : Ratio) : List Term :=
  if exponent.denominator = 2 then imaginaryPower exponent.numerator
  else
    (if exponent.floor % 2 = 0 then [] else [ofInt (-1)])
      ++ [.power (ofInt (-1)) (ofRatio exponent.fraction)]

/-- The parts of a power of a number that is neither zero nor one, with a number as exponent. -/
def numberPowerParts? (base exponent : Numeral) : Option (List Term) :=
  match base, exponent with
  | .exact b, .exact e =>
      let size := b.abs
      let count := e.numerator.natAbs
      if exactBits < powerBits size count then none
      else if e.isWhole then
        let power := b.raise count
        some [ofRatio (if e.isNegative then power.inverse else power)]
      else
        let (top, bottom) :=
          if e.isNegative then (size.denominator, size.numerator.natAbs)
          else (size.numerator.natAbs, size.denominator)
        -- The root of a divisor is moved above the fraction stroke.
        let up := e.abs
        let missing := (Ratio.ofInt (up.floor + 1)).sub up
        let parts :=
          wholePowerParts top up
            ++ (if bottom = 1 then []
                else
                  match Number.exactRoot? bottom up.denominator with
                  | some root => [ofRatio ⟨1, Nat.pow root count⟩]
                  | none => ofRatio ⟨1, Nat.pow bottom (up.floor + 1).toNat⟩
                      :: wholePowerParts bottom missing)
        some (if b.isNegative then minusOnePower e ++ parts else parts)
  | .rounded b, .exact e =>
      if e.isWhole then (b.raiseInt? e.numerator).map fun power => [.number (Numeral.ofWide power)]
      else if b.isNegative then none
      else (b.raisePositive? e).map fun power => [.number (Numeral.ofWide power)]
  | b, .rounded e =>
      if b.isNegative then none
      else (e.toRatio?.bind b.toWide.raisePositive?).map fun power => [.number (Numeral.ofWide power)]

/-- A coefficient entered into a list of distinct terms with coefficients. -/
def enterCoefficient (term : Term) (value : Numeral) :
    List (Term × Numeral) -> List (Term × Numeral)
  | [] => [(term, value)]
  | (known, sum) :: rest =>
      if known = term then (known, sum.add value) :: rest
      else (known, sum) :: enterCoefficient term value rest

/-- A base with what its exponent is a multiple of, and the factor of that multiple. -/
structure PowerPart where
  base : Term
  unit : Term
  count : Numeral

/-- A power entered into a list of powers of different bases or different units. -/
def enterPower (part : PowerPart) : List PowerPart -> List PowerPart
  | [] => [part]
  | known :: rest =>
      if known.base = part.base ∧ known.unit = part.unit then
        { known with count := known.count.add part.count } :: rest
      else known :: enterPower part rest

/-- A factor as a power. -/
def powerPart (factor : Term) : PowerPart :=
  let (base, exponent) := factor.splitPower
  let (count, unit) := exponent.splitCoefficient
  ⟨base, unit, count⟩

/-- The exponent of a power part. -/
def PowerPart.exponent (part : PowerPart) : Term := withCoefficient part.count part.unit

/-- The numbers among some terms. -/
def numerals (terms : List Term) : List Numeral :=
  terms.filterMap fun term => match term with | .number value => some value | _ => none

/-- The infinite parts among some terms. -/
def infinities (terms : List Term) : List Term :=
  terms.filter fun term => !term.isFinite

/-- The parts that are neither numbers nor infinite nor undefined. -/
def ordinary (terms : List Term) : List Term :=
  terms.filter fun term =>
    term.isFinite && (match term with | .number _ => false | _ => true)

/-- Infinite parts that have no sum. -/
def clash (infinite : List Term) : Bool :=
  infinite.contains .undefined
    || (infinite.contains .unbounded && 1 < infinite.length)
    || (infinite.contains (.infinite true) && infinite.contains (.infinite false))

/-- A power of infinity with a sign. -/
def infinitePower (negative : Bool) (exponent : Term) : Term :=
  let power := Term.power (.infinite negative) exponent
  match exponent with
  | .number value =>
      if value.isNegative then zero
      else
        match negative, value.toInt? with
        | false, _ => .infinite false
        | true, some count => .infinite (count % 2 = 1)
        | true, none => .unbounded
  | _ =>
      if negative then power
      else if exponent.sign.isPositive then .infinite false
      else if exponent.sign.isNegative then zero
      else power

/-- A base to an infinite exponent. -/
def powerOfInfinite (base : Term) (negative : Bool) : Term :=
  match base.constantValue? with
  | none => .power base (.infinite negative)
  | some value =>
      if value.abs = Wide.one then .undefined
      else if Wide.lt value.abs Wide.one then
        if !negative then zero else if base.sign.isPositive then .infinite false else .unbounded
      else if negative then zero
      else if value.isNegative then .unbounded
      else .infinite false

mutual

/-- The sum of some terms. -/
def sumOf : Nat -> List Term -> Term
  | 0, terms => chainSum terms
  | _ + 1, terms =>
      let parts := terms.flatMap addends
      let infinite := infinities parts
      if clash infinite then .undefined
      else
        let constant := (numerals parts).foldl Numeral.add Numeral.zero
        let gathered := (ordinary parts).foldl (fun known part =>
          let (value, term) := part.splitCoefficient
          enterCoefficient term value known) []
        let kept := sortedBy Prod.fst (gathered.filter fun entry => !entry.2.isZero)
        let rest := kept.map fun entry => withCoefficient entry.2 entry.1
        match infinite with
        | [] => chainSum (if constant.isZero then rest else .number constant :: rest)
        | direction :: _ => chainSum (direction :: rest.filter fun part => !part.sign.isReal)

/-- The product of some terms. -/
def productOf : Nat -> List Term -> Term
  | 0, terms => chainProduct terms
  | steps + 1, terms =>
      let parts := terms.flatMap factors
      let infinite := infinities parts
      if infinite.contains .undefined then .undefined
      else
        let units := (parts.filter (· == .imaginary)).length
        let turned := imaginaryPower units
        let value := ((numerals parts) ++ (numerals turned)).foldl Numeral.mul Numeral.one
        let bases := (ordinary parts).filter (· != .imaginary)
        let gathered := (bases.map powerPart).foldl (fun known part => enterPower part known) []
        if gathered.length < bases.length then
          let merged := gathered.map fun part => powerOf steps part.base part.exponent
          productOf steps (.number value :: turned.filter (· == .imaginary) ++ infinite ++ merged)
        else
          let rest := sortedBy id (turned.filter (· == .imaginary) ++ bases)
          match infinite with
          | [] =>
              if value.isZero then zero
              else
                match rest with
                | [.plus a b] =>
                    if value.isOne then .plus a b
                    else
                      sumOf steps ((addends (.plus a b)).map fun part =>
                        productOf steps [.number value, part])
                | rest => chainProduct (if value.isOne then rest else .number value :: rest)
          | _ =>
              if value.isZero then .undefined
              else if infinite.contains .unbounded then
                chainProduct (.unbounded :: rest.filter fun part =>
                  !(part == .imaginary || part.sign.isNotZero))
              else
                let negatives := (infinite.filter (· == .infinite true)).length
                  + (rest.filter fun part => part.sign.isNegative).length
                  + (if value.isNegative then 1 else 0)
                chainProduct (.infinite (negatives % 2 == 1) :: rest.filter fun part =>
                  !(part.sign.isPositive || part.sign.isNegative))

/-- A power. -/
def powerOf : Nat -> Term -> Term -> Term
  | 0, base, exponent => .power base exponent
  | steps + 1, base, exponent =>
      if exponent = .unbounded then .undefined
      else if exponent = zero then one
      else if exponent = one then base
      else if base = .undefined || exponent = .undefined then .undefined
      else
        match base, exponent with
        | base, .infinite negative => powerOfInfinite base negative
        | .unbounded, .number value => if value.isNegative then zero else .unbounded
        | .infinite negative, exponent => infinitePower negative exponent
        | .euler, exponent => exponentialOf steps exponent
        | .imaginary, exponent =>
            match exponent.toInt? with
            | some count => productOf steps (imaginaryPower count)
            | none => .power base exponent
        | .number value, exponent =>
            if value.isOne then one
            else if value.isZero then
              if exponent.sign.isPositive then zero
              else if exponent.sign.isNegative then .unbounded
              else .power base exponent
            else
              match exponent with
              | .number e =>
                  match numberPowerParts? value e with
                  | some [part] => part
                  | some parts => productOf steps parts
                  | none => .power base exponent
              | _ => .power base exponent
        | .times a b, .number e =>
            match e.toInt? with
            | some _ =>
                productOf steps ((factors (.times a b)).map fun part =>
                  powerOf steps part exponent)
            | none =>
                let (value, rest) := splitCoefficient (.times a b)
                let outside := rest.factors.filter fun part => part.sign.isNotNegative
                let inside := rest.factors.filter fun part => !part.sign.isNotNegative
                if value.isOne && outside.isEmpty then .power base exponent
                else
                  let inner :=
                    if value.isNegative && !inside.isEmpty then
                      [.power (productOf steps (ofInt (-1) :: inside)) exponent]
                    else if inside.isEmpty then []
                    else [powerOf steps (productOf steps inside) exponent]
                  let size := if inside.isEmpty then value else value.abs
                  productOf steps (powerOf steps (.number size) exponent
                    :: outside.map (fun part => powerOf steps part exponent) ++ inner)
        | .power b e, exponent =>
            if exponent.toInt?.isSome then powerOf steps b (productOf steps [e, exponent])
            else if !e.sign.isReal then .power base exponent
            else
              let even := match e.toInt? with | some count => count % 2 == 0 | none => false
              let inner := if even && b.sign.isReal then absoluteOf steps b else b
              let small :=
                match e with
                | .number value => value.abs.lt Numeral.one
                | _ => false
              if small || inner.sign.isNotNegative then
                powerOf steps inner (productOf steps [e, exponent])
              else .power base exponent
        | base, exponent => .power base exponent

/-- A power of the base of the natural logarithm. -/
def exponentialOf : Nat -> Term -> Term
  | 0, exponent => .power .euler exponent
  | steps + 1, exponent =>
      let plain := Term.power .euler exponent
      match exponent with
      | .apply .log x => x
      | .number (.rounded value) =>
          match value.exp? with
          | some size => .number (Numeral.ofWide size)
          | none => plain
      | .plus a b =>
          let powers := (addends (.plus a b)).map fun part =>
            if part = one then (part, none)
            else
              match exponentialOf steps part with
              | .power .euler kept => (kept, none)
              | other => (part, some other)
          let outside := powers.filterMap Prod.snd
          if outside.isEmpty then plain
          else
            let inside := (powers.filter fun entry => entry.2.isNone).map Prod.fst
            productOf steps (exponentialOf steps (sumOf steps inside) :: outside)
      | .times a b =>
          let parts := factors (.times a b)
          let logarithms := parts.filterMap fun part =>
            match part with | .apply .log x => some x | _ => none
          let others := parts.filter fun part =>
            match part with | .apply .log _ => false | _ => true
          let (value, unit) := splitCoefficient (.times a b)
          match logarithms, value with
          | [x], _ =>
              if others.all fun part => part.isConstant && part.sign.isReal then
                powerOf steps x (productOf steps others)
              else plain
          | _, .exact ratio =>
              let turns := ratio.mul (Ratio.ofInt 2)
              if unit = .times .pi .imaginary && turns.isWhole then
                productOf steps (imaginaryPower turns.numerator)
              else plain
          | _, _ => plain
      | exponent => if exponent = zero then one else if exponent = one then .euler else plain

/-- An absolute value. -/
def absoluteOf : Nat -> Term -> Term
  | 0, term => .apply .abs term
  | steps + 1, term =>
      let negated := productOf steps [ofInt (-1), term]
      if term = .undefined then .undefined
      else if !term.isFinite then .infinite false
      else if term = .imaginary then one
      else if term.sign.isNotNegative then term
      else if term.sign.isNotPositive then negated
      else
        match term with
        | .times a b =>
            let sizes := (factors (.times a b)).map fun part => (part, absoluteOf steps part)
            let isOpen (entry : Term × Term) : Bool :=
              match entry.2 with | .apply .abs _ => true | _ => false
            let known := (sizes.filter fun entry => !isOpen entry).map Prod.snd
            let unknown := (sizes.filter isOpen).map Prod.fst
            match unknown with
            | [] => productOf steps known
            | [single] => productOf steps (absoluteOf steps single :: known)
            | _ => productOf steps (.apply .abs (chainProduct unknown) :: known)
        | .power b e =>
            if b.sign.isReal && e.toInt?.isSome then powerOf steps (absoluteOf steps b) e
            else .apply .abs term
        | _ => .apply .abs (if term.isNegated then negated else term)

end

/-- The steps that an operation may take. -/
def steps : Nat := 400

def sum (terms : List Term) : Term := sumOf steps terms

def product (terms : List Term) : Term := productOf steps terms

def raise (base exponent : Term) : Term := powerOf steps base exponent

def absolute (term : Term) : Term := absoluteOf steps term

def negate (term : Term) : Term := product [ofInt (-1), term]

def difference (a b : Term) : Term := sum [a, negate b]

def quotient (a b : Term) : Term := product [a, raise b (ofInt (-1))]

end Term
end QuantityCalculus
