import QuantityCalculus.Number.BinaryScalar
import QuantityCalculus.Proofs.Grammar.Recognition
import QuantityCalculus.Proofs.Source.Exponents

namespace QuantityCalculus
namespace Source

/-!
# What superscripts mean

Superscripts mean the power with their number as exponent wherever all runs stand alone:
the text with the runs in parentheses is read as the same statement, up to parentheses,
unless it has become too long or too deeply nested.  Both statements evaluate alike
everywhere.

A run that does not stand alone may mean something else.  Its digits may become the first
ones of a longer number, and a sign within it becomes an operator behind the power.
-/

/-- The source with every run of superscripts in parentheses behind the sign of a power. -/
def withParentheses (source : String) : String :=
  String.ofList (writeRuns true false source.toList)

/-- No part of the source is read as the content of a unit bracket. -/
def WithoutUnits (source : String) : Prop :=
  forall text tokens, prepare source.toList = .ok text -> tokenize text = .ok tokens ->
    NoUnits tokens

/-- All runs of superscripts stand alone in the source, its other signs made plain. -/
def ExponentsStandAlone (source : String) : Prop :=
  RunsStandAlone (plainAroundRuns (bare source.toList))

section

variable {R : Type} [Scalar R]

/-- Every number in superscripts is the exponent that is read there, or the start of it if what
follows the run goes on with the number.  Where all runs stand alone, the tokens are those of the
text with parentheses but for the parentheses, and that text is accepted with the same meaning,
if it is accepted at all: it may be too long or too deeply nested. -/
theorem superscripts_mean_exponents {source : String} {tree : Expr R}
    (accepted : parse source = .ok tree) (noUnits : WithoutUnits source) :
    ∃ text tokens, prepare source.toList = .ok text ∧ tokenize text = .ok tokens ∧
      (forall before signs digits rest,
        RunAt (plainAroundRuns (bare source.toList)) before signs digits rest ->
        ∃ spelling,
          ⟨.number spelling, (writeRuns false false before).length + 1 + signs⟩ ∈ tokens ∧
            digits <+: spelling ∧ (spelling = digits <-> endsNumber rest = true)) ∧
      (ExponentsStandAlone source ->
        (∃ others,
          tokenize (writeRuns true false (plainAroundRuns (bare source.toList))) = .ok others ∧
            Encloses false (tokens.map Token.lexeme) (others.map Token.lexeme)) ∧
        ((lengthLimit < (writeRuns true false (bare source.toList)).length ∧
            parse (R := R) (withParentheses source) = .error (.tooLong lengthLimit)) ∨
          parse (R := R) (withParentheses source) = .error (.tooDeeplyNested nestingLimit) ∨
          ∃ other, parse (withParentheses source) = .ok other ∧ RedrawnStatement tree other ∧
            forall environment scopes scope,
              evaluate environment scopes scope tree =
                evaluate environment scopes scope other)) := by
  rcases bind_eq_ok.mp accepted with ⟨text, prepared, rest⟩
  rcases bind_eq_ok.mp rest with ⟨tokens, cut, read⟩
  rcases prepare_enclosed prepared with ⟨rfl, preparedToo⟩
  have noUnitTokens := noUnits _ tokens prepared cut
  refine ⟨_, tokens, prepared, cut, fun _ _ _ _ run => run.number cut noUnitTokens, ?_⟩
  intro alone
  rcases alone.tokensFrom (Nat.zero_le _) rfl cut noUnitTokens with ⟨others, cutToo, encloses⟩
  refine ⟨⟨others, cutToo, encloses false⟩, ?_⟩
  have characters : (withParentheses source).toList = writeRuns true false source.toList :=
    String.toList_ofList
  by_cases long : lengthLimit < (writeRuns true false (bare source.toList)).length
  · refine Or.inl ⟨long, ?_⟩
    rw [parse, characters, preparedToo, if_pos long]
    rfl
  · refine Or.inr ?_
    rw [if_neg long, ← characters] at preparedToo
    have reads : parse (R := R) (withParentheses source) =
        statement (writeRuns true false (plainAroundRuns (bare source.toList))).length others :=
      (bind_eq_of_ok preparedToo).trans (bind_eq_of_ok cutToo)
    rcases (statementBy_sound read).enclosed (encloses false) with ⟨other, redrawn, derivation⟩
    rw [reads]
    by_cases deep : statement (R := R)
        (writeRuns true false (plainAroundRuns (bare source.toList))).length others =
      .error (.tooDeeplyNested nestingLimit)
    · exact Or.inl deep
    · exact Or.inr ⟨other, statement_of_derives derivation deep, redrawn, redrawn.evaluate⟩

end

/-- What is read from `x⁻²+1`. -/
def inverseSquare : Expr Float :=
  .binary .add
    (.binary .power (.var "x") (.num (Scalar.neg (Number.readSpelling ['2']))))
    (.num (Number.readSpelling ['1']))

/-- The tokens of `x⁻²+1`. -/
def inverseSquareTokens : List Token :=
  [⟨.name "x", 0⟩, ⟨.symbol '^', 1⟩, ⟨.symbol '-', 2⟩, ⟨.number ['2'], 3⟩, ⟨.symbol '+', 4⟩,
    ⟨.number ['1'], 5⟩]

theorem withoutUnits_inverseSquare : WithoutUnits "x⁻²+1" := by
  have prepared : prepare "x⁻²+1".toList = .ok "x^-2+1".toList :=
    eq_ok_of_toOption (by decide)
  have cut : tokenize "x^-2+1".toList = .ok inverseSquareTokens :=
    eq_ok_of_toOption (by decide)
  intro text tokens preparedToo cutToo token member content same
  cases prepared.symm.trans preparedToo
  cases cut.symm.trans cutToo
  simp only [inverseSquareTokens, List.mem_cons, List.not_mem_nil, or_false] at member
  rcases member with rfl | rfl | rfl | rfl | rfl | rfl <;> cases same

theorem exponentsStandAlone_inverseSquare : ExponentsStandAlone "x⁻²+1" := by
  have plain : plainAroundRuns (bare "x⁻²+1".toList) =
      'x' :: (List.replicate 1 '⁻' ++ ['²'] ++ ['+', '1']) := by
    decide
  have square : ['²'].map superscript? = ['2'].map some := rfl
  rw [ExponentsStandAlone, plain]
  refine .ordinary rfl (.run 1 square (by decide) rfl ?_ rfl (Or.inr rfl) ?_)
  · rintro c ⟨⟩
    rfl
  · exact .ordinary rfl (.ordinary rfl .nil)

theorem superscripts_mean_exponents_inverseSquare :
    parse "x⁻²+1" = .ok inverseSquare ∧ WithoutUnits "x⁻²+1" ∧ ExponentsStandAlone "x⁻²+1" ∧
      ∃ other : Expr Float, parse "x^(-2)+1" = .ok other ∧
        forall environment scopes scope,
          evaluate environment scopes scope inverseSquare =
            evaluate environment scopes scope other := by
  have accepted : parse "x⁻²+1" = .ok inverseSquare := eq_ok_of_toOption (by decide)
  have written : withParentheses "x⁻²+1" = "x^(-2)+1" := by decide +kernel
  have succeeds : (parse (R := Float) "x^(-2)+1").toOption.isSome = true := by decide +kernel
  rcases superscripts_mean_exponents accepted withoutUnits_inverseSquare with
    ⟨_, _, _, _, _, standing⟩
  have reading := (standing exponentsStandAlone_inverseSquare).2
  rw [written] at reading
  refine ⟨accepted, withoutUnits_inverseSquare, exponentsStandAlone_inverseSquare, ?_⟩
  rcases reading with ⟨_, failed⟩ | failed | ⟨other, reads, _, alike⟩
  · rw [failed] at succeeds
    cases succeeds
  · rw [failed] at succeeds
    cases succeeds
  · exact ⟨other, reads, alike⟩

/-- What is read from `2¹⁻²`, with the sign as an operator behind the power. -/
def powerLessTwo : Expr Float :=
  .binary .subtract
    (.binary .power (.num (Number.readSpelling ['2'])) (.num (Number.readSpelling ['1'])))
    (.num (Number.readSpelling ['2']))

/-- What is read from `2^(1-2)`. -/
def powerOfDifference : Expr Float :=
  .binary .power (.num (Number.readSpelling ['2']))
    (.paren (.binary .subtract (.num (Number.readSpelling ['1']))
      (.num (Number.readSpelling ['2']))))

/-- What is read from `2²5`, with the exponent twenty-five. -/
def powerOfMerged : Expr Float :=
  .binary .power (.num (Number.readSpelling ['2'])) (.num (Number.readSpelling ['2', '5']))

/-- Runs that do not stand alone: `2¹⁻²` is zero instead of a half, and `2²5` is a power of
twenty-five, although nothing can be read with the run in parentheses. -/
theorem superscripts_change_meaning :
    parse "2¹⁻²" = .ok powerLessTwo ∧
      parse (withParentheses "2¹⁻²") = .ok powerOfDifference ∧
      evaluate (Environment.initial Registry.empty) [] 0 powerLessTwo ≠
        evaluate (Environment.initial Registry.empty) [] 0 powerOfDifference ∧
      parse "2²5" = .ok powerOfMerged ∧
      forall other : Expr Float, parse (withParentheses "2²5") ≠ .ok other := by
  refine ⟨eq_ok_of_toOption (by decide +kernel), eq_ok_of_toOption (by decide +kernel), ?_,
    eq_ok_of_toOption (by decide +kernel), ?_⟩
  · intro same
    have zero : (evaluate (Environment.initial Registry.empty) [] 0 powerLessTwo).toOption.map
        (fun quantity => Scalar.ratio quantity.value) = some ⟨0, 1⟩ := by
      decide +kernel
    have half : (evaluate (Environment.initial Registry.empty) [] 0
        powerOfDifference).toOption.map (fun quantity => Scalar.ratio quantity.value) =
          some ⟨1, 2⟩ := by
      decide
    rw [same, half] at zero
    exact absurd zero (by decide)
  · intro other reads
    have fails : (parse (R := Float) (withParentheses "2²5")).toOption = none := by
      decide
    rw [reads] at fails
    cases fails

end Source
end QuantityCalculus
