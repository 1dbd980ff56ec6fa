import QuantityCalculus.Number.Generator
import QuantityCalculus.Term.Identity
import QuantityCalculus.Term.OfExpr

namespace QuantityCalculus

/-!
Checking a solution.

A solution is right when putting the expression in the place of its substitute
gives the target back.  This is done with terms, whose symbols stand for any
positive numbers.  If the difference to the target vanishes as a term, the
solution is right.  Otherwise both are compared at sample points, whose
coordinates lie between one and nine tenths: points where the result is not a
finite real number decide nothing, a single point where it differs from the
target decides against the solution, and without any deciding point it is not
confirmed.
-/

variable {R : Type} [Scalar R]

/-- How many points are tried, and how many deciding ones are enough. -/
def sampleAttempts : Nat := 20
def sampleCount : Nat := 5

/-- The limits of the coordinates. -/
def sampleLow : Wide := Wide.ofRatio ⟨1, 10⟩
def sampleHigh : Wide := Wide.ofRatio ⟨9, 10⟩

/-- Sample points with a coordinate for each name. -/
def samplePoints (names : List String) : Nat -> Generator -> List Point
  | 0, _ => []
  | count + 1, generator =>
      let (values, generator) :=
        generator.listBetween sampleLow sampleHigh names.length
      names.zip values :: samplePoints names count generator

/-- What one sample point says about a solution. -/
inductive Evidence where
  | undecided | confirmed | refuted
deriving DecidableEq, Repr

/-- The distance within which two values count as equal. -/
def sampleTolerance : Wide := Wide.ofRatio ⟨1, 1000000000⟩

/-- Values whose leading bit lies here or beyond count as infinite. -/
def sampleLimit : Int := 1024

/-- A value that is too large to be compared. -/
def isTooLarge (value : Wide) : Bool := !value.isZero && decide (sampleLimit ≤ value.lead)

/-- What a result says, when the target has the expected value. -/
def evidence (result : Complex) (expected : Wide) : Evidence :=
  if isTooLarge result.re || isTooLarge result.im then .undecided
  else if Wide.lt sampleTolerance result.im.abs then .undecided
  else
    let allowed := sampleTolerance.add (sampleTolerance.mul expected.abs)
    if Wide.le (result.re.sub expected).abs allowed then .confirmed else .refuted

/-- The verdict over the evidence of successive points. -/
def verdict : Nat -> List Evidence -> Bool
  | confirmed, [] => decide (0 < confirmed)
  | _, .refuted :: _ => false
  | confirmed, .undecided :: rest => verdict confirmed rest
  | confirmed, .confirmed :: rest =>
      if sampleCount ≤ confirmed + 1 then true else verdict (confirmed + 1) rest

/-- A term with the coordinates of a point in the place of its symbols. -/
def Term.placed (term : Term) (point : Point) : Term :=
  point.foldl (fun term entry => term.replace entry.1 (.number (Numeral.ofWide entry.2))) term

/-- What a sample point says about a term that should equal a symbol. -/
def Term.evidenceAt (term : Term) (target : String) (point : Point) : Evidence :=
  match (term.placed point).value? [], point.lookup target with
  | some result, some expected => evidence result expected
  | _, _ => .undecided

/-- A term equals a symbol, as a term or at sample points. -/
def Term.equalsSymbol (term : Term) (target : String) : Bool :=
  if (Term.difference term (.symbol target)).vanishes then true
  else
    let names := Text.sortedNames (target :: term.symbols)
    let points := samplePoints names sampleAttempts Generator.initial
    verdict 0 (points.map (term.evidenceAt target))

/-- Whether a solution gives the target back. -/
def verifySolution (functions : FunctionStore R) (expr : Expr R) (target substitute : String)
    (solved : Expr R) : Except Failure Bool := do
  let composed ← expr.term functions
  let inverse ← solved.term functions
  .ok ((inverse.replace substitute composed).equalsSymbol target)

end QuantityCalculus
