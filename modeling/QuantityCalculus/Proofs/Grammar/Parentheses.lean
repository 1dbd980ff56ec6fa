import QuantityCalculus.Proofs.Evaluation.Congruence
import QuantityCalculus.Proofs.Grammar.Derivation

namespace QuantityCalculus
namespace Source

/-!
# Exponents in parentheses

Behind the sign of a power, a number with signs in front may be put in parentheses.  Then
the same statement is derived, but for the parentheses around that number, which mean
nothing.  One thing has to be asked: where there is a sign, nothing may follow that joins
the number more closely than the sign does, for the sign would come to stand inside.

By induction on the derivation.  What is put in parentheses lies within one phrase, because
no phrase ends with the sign of a power or with a sign of a number.
-/

/-! ## Lexemes -/

/-- A number with minus signs in front. -/
def signed (signs : Nat) (spelling : List Char) : List Lexeme :=
  List.replicate signs (.symbol '-') ++ [.number spelling]

/-- Behind this lexeme stands an exponent. -/
def Lexeme.raises : Lexeme -> Bool
  | .symbol c => c == '^'
  | _ => false

/-- The lexeme joins what stands in front of it more closely than a sign in front does. -/
def Lexeme.binds : Lexeme -> Bool
  | .symbol c => c == '^' || c == '!'
  | .unit _ => true
  | _ => false

/-- Some numbers that stand as exponents are put in parentheses; the first lexeme may itself
stand behind the sign of a power. -/
inductive Encloses : Bool -> List Lexeme -> List Lexeme -> Prop
  | nil {behind : Bool} : Encloses behind [] []
  | same {behind : Bool} {lexeme : Lexeme} {lexemes others : List Lexeme} :
      Encloses lexeme.raises lexemes others ->
      Encloses behind (lexeme :: lexemes) (lexeme :: others)
  | enclosed {signs : Nat} {spelling : List Char} {lexemes others : List Lexeme}
      (alone : signs = 0 ∨ lexemes.head?.all (fun next => !next.binds) = true) :
      Encloses false lexemes others ->
      Encloses true (signed signs spelling ++ lexemes)
        (within '(' (signed signs spelling) ')' ++ others)

/-- Lexemes that end neither with the sign of a power nor with a minus sign. -/
def EndsWhole (lexemes : List Lexeme) : Prop :=
  forall last, last ∈ lexemes.getLast? -> last.raises = false ∧ last ≠ .symbol '-'

theorem EndsWhole.append {lexemes more : List Lexeme} (written : more ≠ [])
    (ends : EndsWhole more) : EndsWhole (lexemes ++ more) := by
  intro last member
  rw [List.getLast?_append_of_ne_nil _ written] at member
  exact ends last member

theorem EndsWhole.cons {lexeme : Lexeme} {more : List Lexeme} (written : more ≠ [])
    (ends : EndsWhole more) : EndsWhole (lexeme :: more) :=
  @EndsWhole.append [lexeme] more written ends

theorem endsWhole_singleton {lexeme : Lexeme} (raises : lexeme.raises = false)
    (sign : lexeme ≠ .symbol '-') : EndsWhole [lexeme] := by
  intro last member
  cases member
  exact ⟨raises, sign⟩

theorem EndsWhole.of_cons {lexeme : Lexeme} {lexemes : List Lexeme}
    (ends : EndsWhole (lexeme :: lexemes)) : EndsWhole lexemes := by
  intro last member
  refine ends last ?_
  rw [List.getLast?_cons, Option.mem_def.mp member]
  rfl

theorem EndsWhole.of_append {lexemes more : List Lexeme} (ends : EndsWhole (lexemes ++ more)) :
    EndsWhole more := by
  intro last member
  refine ends last ?_
  rw [List.getLast?_append, Option.mem_def.mp member]
  rfl

/-- In front of the number there are only minus signs. -/
theorem eq_minus_of_mem {signs : Nat} {spelling : List Char} {first behind : List Lexeme}
    (parts : signed signs spelling = first ++ behind) (written : behind ≠ []) {lexeme : Lexeme}
    (member : lexeme ∈ first) : lexeme = .symbol '-' := by
  have short := congrArg List.dropLast parts
  rw [signed, List.dropLast_concat, List.dropLast_append_of_ne_nil written] at short
  exact List.eq_of_mem_replicate (short ▸ List.mem_append_left _ member)

/-- Where a part ends whole, the rest is handled by itself. -/
theorem Encloses.split {behind : Bool} {first second others : List Lexeme}
    (encloses : Encloses behind (first ++ second) others) (ends : EndsWhole first)
    (start : first = [] -> behind = false) :
    ∃ before after, others = before ++ after ∧ Encloses behind first before ∧
      Encloses false second after := by
  generalize whole : first ++ second = lexemes at encloses
  induction encloses generalizing first with
  | nil =>
      rcases List.append_eq_nil_iff.mp whole with ⟨rfl, rfl⟩
      exact ⟨[], [], rfl, .nil, .nil⟩
  | @same behind lexeme lexemes others later inductionHypothesis =>
      cases first with
      | nil =>
          cases whole
          exact ⟨[], _, rfl, .nil, .same later⟩
      | cons head first =>
          rcases List.cons.inj whole with ⟨rfl, rest⟩
          have flag : first = [] -> head.raises = false := by
            rintro rfl
            exact (ends head rfl).1
          rcases inductionHypothesis ends.of_cons flag rest with
            ⟨before, after, rfl, here, there⟩
          exact ⟨head :: before, after, rfl, .same here, there⟩
  | @enclosed signs spelling lexemes others alone later inductionHypothesis =>
      have written : first ≠ [] := fun empty => Bool.noConfusion (start empty)
      have behindNumber : forall {middle : List Lexeme},
          first = signed signs spelling ++ middle -> middle ++ second = lexemes ->
          ∃ before after, within '(' (signed signs spelling) ')' ++ others = before ++ after ∧
            Encloses true first before ∧ Encloses false second after := by
        rintro middle rfl rest
        rcases inductionHypothesis ends.of_append (fun _ => rfl) rest with
          ⟨before, after, rfl, here, there⟩
        refine ⟨within '(' (signed signs spelling) ')' ++ before, after,
          (List.append_assoc _ _ _).symm, .enclosed ?_ here, there⟩
        refine alone.imp_right fun next => ?_
        cases middle with
        | nil => rfl
        | cons head middle =>
            rw [← rest] at next
            exact next
      rcases List.append_eq_append_iff.mp whole with ⟨middle, parts, rest⟩ | ⟨middle, parts, rest⟩
      · -- The part would end with a sign of the number, if not with the number itself.
        cases middle with
        | nil =>
            rw [List.append_nil] at parts
            exact behindNumber (by rw [parts, List.append_nil]) (by rw [rest]; rfl)
        | cons head middle =>
            have last := ends _ (List.getLast?_eq_some_getLast written)
            exact absurd
              (eq_minus_of_mem parts (List.cons_ne_nil _ _) (List.getLast_mem written)) last.2
      · exact behindNumber parts rest.symm

/-! ## What is derived ends whole -/

/-- Lexemes that end whole, at least one of them. -/
structure Whole (lexemes : List Lexeme) : Prop where
  ends : EndsWhole lexemes
  written : lexemes ≠ []

section

variable {lexemes more : List Lexeme}

theorem Whole.append (whole : Whole more) (lexemes : List Lexeme) : Whole (lexemes ++ more) :=
  ⟨whole.ends.append whole.written, List.append_ne_nil_of_right_ne_nil _ whole.written⟩

theorem Whole.cons (whole : Whole more) (lexeme : Lexeme) : Whole (lexeme :: more) :=
  ⟨whole.ends.cons whole.written, List.cons_ne_nil _ _⟩

theorem whole_singleton {lexeme : Lexeme} (raises : lexeme.raises = false)
    (sign : lexeme ≠ .symbol '-') : Whole [lexeme] :=
  ⟨endsWhole_singleton raises sign, List.cons_ne_nil _ _⟩

theorem whole_within {left right : Char} (raises : (Lexeme.symbol right).raises = false)
    (sign : Lexeme.symbol right ≠ .symbol '-') (lexemes : List Lexeme) :
    Whole (within left lexemes right) :=
  ((whole_singleton raises sign).append lexemes).cons (.symbol left)

end

section

variable {R : Type} [Scalar R] {trailing : Bool} {room : Nat} {lexemes : List Lexeme}

/-- Every phrase ends whole, and only bindings may be left out. -/
theorem Derives.whole {phrase : Phrase R} (derivation : Derives trailing room lexemes phrase) :
    phrase.Holds (fun _ => Whole lexemes) (fun _ => EndsWhole lexemes) := by
  induction derivation with
  | term _ inner | unary _ inner | power _ inner | marked _ inner | primary _ inner => exact inner
  | sum _ _ _ _ right | product _ _ _ _ right | raised _ _ _ right =>
      exact (Whole.cons right _).append _
  | minus _ inner | plus _ inner => exact Whole.cons inner _
  | factorial _ _ => exact (whole_singleton rfl (by decide)).append _
  | unitBracket _ _ _ => exact (whole_singleton rfl Lexeme.noConfusion).append _
  | number _ | named _ | memory => exact whole_singleton rfl Lexeme.noConfusion
  | parenthesized _ _ | bars _ _ => exact whole_within rfl (by decide) _
  | fraction _ _ _ _ | root _ _ _ _ => exact ((whole_within rfl (by decide) _).append _).cons _
  | squareRoot _ _ | memoryAt _ _ | function _ _ _ =>
      exact (whole_within rfl (by decide) _).cons _
  | call name => exact (whole_singleton rfl Lexeme.noConfusion).cons _
  | callWith name _ _ => exact ((whole_within rfl (by decide) _).cons _).cons _
  | noBindings => exact nofun
  | lastBinding name _ inner => exact ((Whole.cons inner _).cons _).ends
  | @binding _ _ separator more _ _ name _ separates _ _ _ rest =>
      have tail : Whole (.symbol separator :: more) := by
        cases more with
        | nil =>
            have sign : separator = ';' ∨ separator = ',' := by
              simpa [isSeparator] using separates
            rcases sign with rfl | rfl <;> exact whole_singleton rfl (by decide)
        | cons _ _ => exact Whole.cons ⟨rest, List.cons_ne_nil _ _⟩ _
      exact (((tail.append _).cons _).cons _).ends

/-! ## A number with signs -/

/-- Behind its primary, a marked expression goes on with what binds closely. -/
theorem Derives.marked_parts {lexemes : List Lexeme} {x : Expr R} :
    Derives trailing room lexemes (.marked x) -> ∃ front marks y, lexemes = front ++ marks ∧
      Derives (R := R) trailing room front (.primary y) ∧ marks.head?.all Lexeme.binds = true
  | .primary first => ⟨_, [], _, (List.append_nil _).symm, first, rfl⟩
  | .factorial inner => by
      rcases Derives.marked_parts inner with ⟨front, marks, y, rfl, first, binds⟩
      refine ⟨front, marks ++ [.symbol '!'], y, List.append_assoc _ _ _, first, ?_⟩
      cases marks with
      | nil => rfl
      | cons _ _ => exact binds
  | .unitBracket inner _ => by
      rcases Derives.marked_parts inner with ⟨front, marks, y, rfl, first, binds⟩
      refine ⟨front, marks ++ [.unit _], y, List.append_assoc _ _ _, first, ?_⟩
      cases marks with
      | nil => rfl
      | cons _ _ => exact binds

/-- So does a power. -/
theorem Derives.power_parts {x : Expr R} (derivation : Derives trailing room lexemes (.power x)) :
    ∃ front marks y, lexemes = front ++ marks ∧
      Derives (R := R) trailing room front (.primary y) ∧ marks.head?.all Lexeme.binds = true := by
  cases derivation with
  | marked inner => exact inner.marked_parts
  | @raised _ _ more _ _ inner _ =>
      rcases inner.marked_parts with ⟨front, marks, y, rfl, first, binds⟩
      refine ⟨front, marks ++ .symbol '^' :: more, y, List.append_assoc _ _ _, first, ?_⟩
      cases marks with
      | nil => rfl
      | cons _ _ => exact binds

/-- No primary starts with a minus sign, and one that starts with a number is that number. -/
theorem Derives.primary_first {first : Lexeme} {x : Expr R}
    (derivation : Derives trailing room (first :: lexemes) (.primary x)) :
    first ≠ .symbol '-' ∧ forall spelling, first = .number spelling -> lexemes = [] := by
  generalize whole : first :: lexemes = all at derivation
  cases derivation with
  | number _ =>
      cases whole
      exact ⟨nofun, fun _ _ => rfl⟩
  | _ =>
      cases (List.cons.inj whole).1
      exact ⟨nofun, nofun⟩

/-- A unary that starts with a number and its signs is nothing else, unless it goes on with what
binds closely.  By induction on the signs. -/
theorem Derives.signed_alone {signs : Nat} {spelling : List Char} {rest : List Lexeme} {x : Expr R}
    (derivation : Derives trailing room (signed signs spelling ++ rest) (.unary x))
    (alone : rest.head?.all (fun next => !next.binds) = true) : rest = [] := by
  induction signs generalizing room x with
  | zero =>
      generalize start : signed 0 spelling ++ rest = lexemes at derivation
      cases derivation with
      | minus _ | plus _ => cases (List.cons.inj start).1
      | power powers =>
          subst start
          rcases powers.power_parts with ⟨front, marks, y, parts, first, binds⟩
          cases front with
          | nil => exact absurd rfl (Derives.whole first).written
          | cons head front =>
              rcases List.cons.inj parts with ⟨rfl, behind⟩
              cases first.primary_first.2 spelling rfl
              have same : rest = marks := behind
              rw [same] at alone ⊢
              cases marks with
              | nil => rfl
              | cons next marks =>
                  rw [List.head?_cons, Option.all_some] at alone binds
                  rw [binds] at alone
                  cases alone
  | succ signs inductionHypothesis =>
      generalize start : signed (signs + 1) spelling ++ rest = lexemes at derivation
      cases derivation with
      | minus inner =>
          have same := (List.cons.inj start).2
          exact inductionHypothesis (same ▸ inner)
      | plus _ => cases (List.cons.inj start).1
      | power powers =>
          subst start
          rcases powers.power_parts with ⟨front, marks, y, parts, first, _⟩
          cases front with
          | nil => exact absurd rfl (Derives.whole first).written
          | cons head front =>
              cases (List.cons.inj parts).1
              exact absurd rfl first.primary_first.1

end

/-! ## The expressions -/

/-- Parentheses around an expression. -/
inductive Parenthesizes {R : Type} : Expr R -> Expr R -> Prop
  | around (x : Expr R) : Parenthesizes x (.paren x)

/-- A number as it was written. -/
def isLiteral {R : Type} : Expr R -> Bool
  | .num _ => true
  | _ => false

/-- The same expression but for parentheses in it.  Where no sign of a power stands in front, it
does not become a literal or cease to be one, so a sign in front still means the same. -/
structure Redrawn {R : Type} (behind : Bool) (x y : Expr R) : Prop where
  congruent : Congruent Parenthesizes x y
  literal : behind = false -> y = x ∨ (isLiteral x = false ∧ isLiteral y = false)

section

variable {R : Type} {behind : Bool} {x y : Expr R}

theorem Redrawn.refl (x : Expr R) : Redrawn behind x x :=
  ⟨.refl x, fun _ => Or.inl rfl⟩

/-- Expressions that are no literals. -/
theorem Redrawn.compound (congruent : Congruent Parenthesizes x y) (first : isLiteral x = false)
    (second : isLiteral y = false) : Redrawn behind x y :=
  ⟨congruent, fun _ => Or.inr ⟨first, second⟩⟩

/-- What holds without a sign of a power in front holds behind one. -/
theorem Redrawn.anywhere (redrawn : Redrawn false x y) : Redrawn behind x y :=
  ⟨redrawn.congruent, fun _ => redrawn.literal rfl⟩

theorem Redrawn.enclosed (x : Expr R) : Redrawn true x (.paren x) :=
  ⟨.law (.around x), nofun⟩

theorem Redrawn.negated [Scalar R] (redrawn : Redrawn false x y) :
    Redrawn behind (negated x) (negated y) := by
  rcases redrawn.literal rfl with rfl | ⟨first, second⟩
  · exact .refl _
  · have product : forall {z : Expr R}, isLiteral z = false ->
        Source.negated z = .binary .multiply (.num (Scalar.ofInt (-1))) z := by
      intro z other
      cases z <;> first | rfl | cases other
    rw [product first, product second]
    exact .compound (.right _ _ redrawn.congruent) rfl rfl

end

section

variable {R : Type} [Scalar R] {room : Nat} {lexemes others : List Lexeme} {behind : Bool}

/-- The lexemes derive a phrase of the kind that is about the same, but for parentheses. -/
def RedrawnAs (room : Nat) (others : List Lexeme) (behind : Bool) (kind : Expr R -> Phrase R)
    (x : Expr R) : Prop :=
  ∃ y, Redrawn behind x y ∧ Derives true (room + 2) others (kind y)

/-- The lexemes derive the same phrase, but for parentheses. -/
def Phrase.IsRedrawn (room : Nat) (others : List Lexeme) (behind : Bool) : Phrase R -> Prop
  | .expression x => RedrawnAs room others behind .expression x
  | .term x => RedrawnAs room others behind .term x
  | .unary x => RedrawnAs room others behind .unary x
  | .power x => RedrawnAs room others behind .power x
  | .marked x => RedrawnAs room others behind .marked x
  | .primary x => RedrawnAs room others behind .primary x
  | .bindings arguments => ∃ bindings : Arguments R,
      List.Forall₂ (fun first second => first.1 = second.1 ∧
        Congruent Parenthesizes first.2 second.2) arguments.toList bindings.toList ∧
      Derives true (room + 2) others (.bindings bindings)

/-- A number with its signs, in parentheses. -/
theorem Derives.parentheses {signs : Nat} {spelling : List Char} {x : Expr R}
    (derivation : Derives true (room + 1) (signed signs spelling) (.unary x)) :
    Derives true (room + 2) (within '(' (signed signs spelling) ')') (.primary (.paren x)) :=
  .parenthesized (.term (.unary derivation))

omit [Scalar R] in
theorem Encloses.nothing (encloses : Encloses behind [] others) : others = [] := by
  generalize whole : ([] : List Lexeme) = all at encloses
  cases encloses with
  | nil => rfl
  | same _ => cases whole
  | enclosed _ _ => exact absurd (List.append_eq_nil_iff.mp whole.symm).1 (by simp [signed])

omit [Scalar R] in
theorem Encloses.behind_name {word : String}
    (encloses : Encloses behind (.name word :: lexemes) others) :
    ∃ rest, others = .name word :: rest ∧ Encloses false lexemes rest := by
  generalize whole : Lexeme.name word :: lexemes = all at encloses
  cases encloses with
  | nil => cases whole
  | same later =>
      cases whole
      exact ⟨_, rfl, later⟩
  | @enclosed signs _ _ _ _ _ => cases signs <;> cases (List.cons.inj whole).1

omit [Scalar R] in
theorem Encloses.behind_symbol {c : Char} (other : c ≠ '-')
    (encloses : Encloses behind (.symbol c :: lexemes) others) :
    ∃ rest, others = .symbol c :: rest ∧ Encloses (Lexeme.symbol c).raises lexemes rest := by
  generalize whole : Lexeme.symbol c :: lexemes = all at encloses
  cases encloses with
  | nil => cases whole
  | same later =>
      cases whole
      exact ⟨_, rfl, later⟩
  | @enclosed signs _ _ _ _ _ =>
      cases signs with
      | zero => cases (List.cons.inj whole).1
      | succ signs => exact absurd (Lexeme.symbol.inj (List.cons.inj whole).1) other

omit [Scalar R] in
/-- Away from the sign of a power a lexeme stays what it is. -/
theorem Encloses.outside {lexeme : Lexeme} (encloses : Encloses false (lexeme :: lexemes) others) :
    ∃ rest, others = lexeme :: rest ∧ Encloses lexeme.raises lexemes rest := by
  cases encloses with
  | same later => exact ⟨_, rfl, later⟩

/-- An operator between two operands. -/
theorem Encloses.operator {sign : Lexeme} {more : List Lexeme}
    (encloses : Encloses behind (lexemes ++ sign :: more) others) (whole : Whole lexemes) :
    ∃ before after, others = before ++ sign :: after ∧ Encloses behind lexemes before ∧
      Encloses sign.raises more after := by
  rcases encloses.split whole.ends fun empty => absurd empty whole.written with
    ⟨before, after, rfl, here, there⟩
  rcases there.outside with ⟨rest, rfl, later⟩
  exact ⟨before, rest, rfl, here, later⟩

/-- Something in brackets, and what stands behind them. -/
theorem Encloses.brackets {left right : Char} {more : List Lexeme}
    (encloses : Encloses behind (within left lexemes right ++ more) others)
    (ends : EndsWhole lexemes) (opens : left ≠ '-' ∧ left ≠ '^') (closes : right ≠ '^') :
    ∃ inside after, others = within left inside right ++ after ∧ Encloses false lexemes inside ∧
      Encloses false more after := by
  have noPower : forall {c : Char}, c ≠ '^' -> (Lexeme.symbol c).raises = false :=
    fun other => beq_false_of_ne other
  rw [within, List.cons_append, List.append_assoc] at encloses
  rcases encloses.behind_symbol opens.1 with ⟨rest, rfl, inner⟩
  rw [noPower opens.2] at inner
  rcases inner.split ends fun _ => rfl with ⟨inside, closing, rfl, here, there⟩
  rcases there.outside with ⟨after, rfl, later⟩
  rw [noPower closes] at later
  exact ⟨inside, after, by simp [within], here, later⟩

/-- Brackets with nothing behind them. -/
theorem Encloses.bracketed {left right : Char}
    (encloses : Encloses behind (within left lexemes right) others) (ends : EndsWhole lexemes)
    (opens : left ≠ '-' ∧ left ≠ '^') (closes : right ≠ '^') :
    ∃ inside, others = within left inside right ∧ Encloses false lexemes inside := by
  rw [← List.append_nil (within left lexemes right)] at encloses
  rcases encloses.brackets ends opens closes with ⟨inside, after, rfl, inner, rest⟩
  cases rest
  exact ⟨inside, List.append_nil _, inner⟩

/-- A number with its signs, as an operand or behind the sign of a power. -/
theorem Derives.number_enclosed {spelling : List Char}
    (encloses : Encloses behind [.number spelling] others) :
    RedrawnAs (R := R) room others behind .primary (.num (Number.readSpelling spelling)) := by
  generalize whole : [Lexeme.number spelling] = all at encloses
  cases encloses with
  | nil => cases whole
  | same later =>
      cases whole
      cases later
      exact ⟨_, .refl _, .number spelling⟩
  | @enclosed signs _ _ _ _ later =>
      cases signs with
      | succ signs => cases (List.cons.inj whole).1
      | zero =>
          cases whole
          cases later
          rw [List.append_nil]
          have unary : Derives true (room + 1) (signed 0 spelling)
              (.unary (.num (Number.readSpelling spelling) : Expr R)) :=
            .power (.marked (.primary (.number spelling)))
          exact ⟨_, .enclosed _, unary.parentheses⟩

/-- A minus sign and its operand.  If the sign is one of a number that is put in parentheses,
then this number is all there is. -/
theorem Derives.minus_enclosed {x : Expr R} (derivation : Derives true room lexemes (.unary x))
    (encloses : Encloses behind (.symbol '-' :: lexemes) others)
    (inside : forall others, Encloses false lexemes others ->
      RedrawnAs room others false .unary x) :
    RedrawnAs (room + 1) others behind .unary (negated x) := by
  have unary : Derives true (room + 1) (.symbol '-' :: lexemes) (.unary (negated x)) :=
    .minus derivation
  generalize whole : Lexeme.symbol '-' :: lexemes = all at encloses unary
  cases encloses with
  | nil => cases whole
  | same later =>
      cases whole
      rcases inside _ later with ⟨y, redrawn, derived⟩
      exact ⟨_, redrawn.negated, .minus derived⟩
  | @enclosed signs spelling rest _ alone later =>
      cases signs with
      | zero => cases (List.cons.inj whole).1
      | succ signs =>
          have nothing : rest = [] :=
            unary.signed_alone (alone.resolve_left (Nat.succ_ne_zero signs))
          subst nothing
          cases later
          rw [List.append_nil] at unary ⊢
          exact ⟨_, .enclosed _, .power (.marked (.primary unary.parentheses))⟩

/-- What is derived stays the same but for parentheses, when numbers behind signs of powers are put
in parentheses.  By induction on the derivation. -/
theorem Derives.enclosed {phrase : Phrase R} (derivation : Derives true room lexemes phrase)
    (encloses : Encloses behind lexemes others) :
    phrase.IsRedrawn room others behind := by
  induction derivation generalizing behind others with
  | term _ inner =>
      rcases inner encloses with ⟨_, redrawn, derived⟩
      exact ⟨_, redrawn, .term derived⟩
  | unary _ inner =>
      rcases inner encloses with ⟨_, redrawn, derived⟩
      exact ⟨_, redrawn, .unary derived⟩
  | power _ inner =>
      rcases inner encloses with ⟨_, redrawn, derived⟩
      exact ⟨_, redrawn, .power derived⟩
  | marked _ inner =>
      rcases inner encloses with ⟨_, redrawn, derived⟩
      exact ⟨_, redrawn, .marked derived⟩
  | primary _ inner =>
      rcases inner encloses with ⟨_, redrawn, derived⟩
      exact ⟨_, redrawn, .primary derived⟩
  | sum first operates _ left right =>
      rcases encloses.operator first.whole with ⟨before, after, rfl, here, there⟩
      rcases left here with ⟨_, one, derivedLeft⟩
      rcases right there with ⟨_, two, derivedRight⟩
      exact ⟨_, .compound (.binary _ one.congruent two.congruent) rfl rfl,
        .sum derivedLeft operates derivedRight⟩
  | product first operates _ left right =>
      rcases encloses.operator first.whole with ⟨before, after, rfl, here, there⟩
      rcases left here with ⟨_, one, derivedLeft⟩
      rcases right there with ⟨_, two, derivedRight⟩
      exact ⟨_, .compound (.binary _ one.congruent two.congruent) rfl rfl,
        .product derivedLeft operates derivedRight⟩
  | raised first _ left right =>
      rcases encloses.operator first.whole with ⟨before, after, rfl, here, there⟩
      rcases left here with ⟨_, one, derivedLeft⟩
      rcases right there with ⟨_, two, derivedRight⟩
      exact ⟨_, .compound (.binary _ one.congruent two.congruent) rfl rfl,
        .raised derivedLeft derivedRight⟩
  | minus operand inner =>
      exact operand.minus_enclosed encloses fun _ later => inner later
  | plus _ inner =>
      rcases encloses.behind_symbol (by decide) with ⟨rest, rfl, later⟩
      rcases inner later with ⟨_, redrawn, derived⟩
      exact ⟨_, redrawn.anywhere, .plus derived⟩
  | factorial first inner =>
      rcases encloses.operator first.whole with ⟨before, after, rfl, here, there⟩
      rcases inner here with ⟨_, redrawn, derived⟩
      cases there
      exact ⟨_, .compound (.factorial redrawn.congruent) rfl rfl, .factorial derived⟩
  | unitBracket first descriptor inner =>
      rcases encloses.operator first.whole with ⟨before, after, rfl, here, there⟩
      rcases inner here with ⟨_, redrawn, derived⟩
      cases there
      exact ⟨_, .compound (.marked _ redrawn.congruent) rfl rfl,
        .unitBracket derived descriptor⟩
  | number spelling =>
      exact Derives.number_enclosed encloses
  | named allowed =>
      rcases encloses.behind_name with ⟨rest, rfl, later⟩
      cases later
      exact ⟨_, .refl _, .named allowed⟩
  | memory =>
      rcases encloses.behind_name with ⟨rest, rfl, later⟩
      cases later
      exact ⟨_, .refl _, .memory⟩
  | parenthesized within inner =>
      rcases encloses.bracketed within.whole.ends (by decide) (by decide) with ⟨inside, rfl, here⟩
      rcases inner here with ⟨_, redrawn, derived⟩
      exact ⟨_, .compound (.paren redrawn.congruent) rfl rfl, .parenthesized derived⟩
  | bars within inner =>
      rcases encloses.bracketed within.whole.ends (by decide) (by decide) with ⟨inside, rfl, here⟩
      rcases inner here with ⟨_, redrawn, derived⟩
      exact ⟨_, .compound (.abs redrawn.congruent) rfl rfl, .bars derived⟩
  | squareRoot within inner =>
      rcases encloses.behind_name with ⟨rest, rfl, later⟩
      rcases later.bracketed within.whole.ends (by decide) (by decide) with ⟨inside, rfl, here⟩
      rcases inner here with ⟨_, redrawn, derived⟩
      exact ⟨_, .compound (.sqrt redrawn.congruent) rfl rfl, .squareRoot derived⟩
  | memoryAt within inner =>
      rcases encloses.behind_name with ⟨rest, rfl, later⟩
      rcases later.bracketed within.whole.ends (by decide) (by decide) with ⟨inside, rfl, here⟩
      rcases inner here with ⟨_, redrawn, derived⟩
      exact ⟨_, .compound (.memAt redrawn.congruent) rfl rfl, .memoryAt derived⟩
  | function keyword within inner =>
      rcases encloses.behind_name with ⟨rest, rfl, later⟩
      rcases later.bracketed within.whole.ends (by decide) (by decide) with ⟨inside, rfl, here⟩
      rcases inner here with ⟨_, redrawn, derived⟩
      exact ⟨_, .compound (.func _ redrawn.congruent) rfl rfl,
        .function keyword derived⟩
  | fraction first second above below =>
      rcases encloses.behind_name with ⟨rest, rfl, later⟩
      rcases later.brackets first.whole.ends (by decide) (by decide) with
        ⟨inside, after, rfl, here, further⟩
      rcases further.bracketed second.whole.ends (by decide) (by decide) with
        ⟨more, rfl, there⟩
      rcases above here with ⟨_, one, derivedAbove⟩
      rcases below there with ⟨_, two, derivedBelow⟩
      exact ⟨_, .compound (.fraction one.congruent two.congruent) rfl rfl,
        .fraction derivedAbove derivedBelow⟩
  | root first second index radicand =>
      rcases encloses.behind_name with ⟨rest, rfl, later⟩
      rcases later.brackets first.whole.ends (by decide) (by decide) with
        ⟨inside, after, rfl, here, further⟩
      rcases further.bracketed second.whole.ends (by decide) (by decide) with
        ⟨more, rfl, there⟩
      rcases index here with ⟨_, one, derivedIndex⟩
      rcases radicand there with ⟨_, two, derivedRadicand⟩
      have congruent := (Congruent.root _ two.congruent).trans (.index _ one.congruent)
      exact ⟨_, .compound congruent rfl rfl, .root derivedIndex derivedRadicand⟩
  | call name =>
      rcases encloses.behind_symbol (by decide) with ⟨rest, rfl, later⟩
      rcases later.outside with ⟨rest, rfl, last⟩
      cases last
      exact ⟨_, .refl _, .call name⟩
  | callWith name within inner =>
      rcases encloses.behind_symbol (by decide) with ⟨rest, rfl, later⟩
      rcases later.outside with ⟨rest, rfl, further⟩
      rcases further.bracketed within.whole (by decide) (by decide) with ⟨inside, rfl, here⟩
      rcases inner here with ⟨_, same, derived⟩
      exact ⟨_, .compound (.arguments name same) rfl rfl, .callWith name derived⟩
  | noBindings =>
      rw [encloses.nothing]
      exact ⟨_, .nil, .noBindings⟩
  | lastBinding name _ inner =>
      rcases encloses.behind_name with ⟨rest, rfl, later⟩
      rcases later.outside with ⟨rest, rfl, further⟩
      rcases inner further with ⟨y, redrawn, derived⟩
      exact ⟨.cons name y .nil, .cons ⟨rfl, redrawn.congruent⟩ .nil, .lastBinding name derived⟩
  | binding name value separates _ _ first rest =>
      rcases encloses.behind_name with ⟨tail, rfl, later⟩
      rcases later.outside with ⟨tail, rfl, further⟩
      rcases further.operator value.whole with ⟨before, after, rfl, here, there⟩
      rcases first here with ⟨y, redrawn, derived⟩
      rcases rest there with ⟨more, same, derivedRest⟩
      exact ⟨.cons name y more, .cons ⟨rfl, redrawn.congruent⟩ same,
        .binding name derived separates derivedRest (Or.inl rfl)⟩

/-! ## Statements -/

/-- Statements of one form that are the same but for parentheses. -/
inductive RedrawnStatement {R : Type} : Expr R -> Expr R -> Prop
  | target (name : String) : RedrawnStatement (.target name) (.target name)
  | declaration (name : String) {x y : Expr R} : Congruent Parenthesizes x y ->
      RedrawnStatement (.declaration name x) (.declaration name y)
  | expression {x y : Expr R} : Congruent Parenthesizes x y -> RedrawnStatement x y
  | equation {x y z w : Expr R} : Congruent Parenthesizes x z -> Congruent Parenthesizes y w ->
      RedrawnStatement (.equation x y) (.equation z w)

theorem DerivesStatement.enclosed {tree : Expr R}
    (derivation : DerivesStatement true room lexemes tree)
    (encloses : Encloses false lexemes others) :
    ∃ other, RedrawnStatement tree other ∧ DerivesStatement true (room + 2) others other := by
  cases derivation with
  | target name =>
      rcases encloses.outside with ⟨rest, rfl, later⟩
      rcases later.outside with ⟨rest, rfl, last⟩
      rw [last.nothing]
      exact ⟨_, .target name, .target name⟩
  | declaration name value =>
      rcases encloses.outside with ⟨rest, rfl, later⟩
      rcases later.outside with ⟨rest, rfl, further⟩
      rcases value.enclosed further with ⟨y, redrawn, derived⟩
      exact ⟨_, .declaration name redrawn.congruent, .declaration name derived⟩
  | expression whole =>
      rcases whole.enclosed encloses with ⟨y, redrawn, derived⟩
      exact ⟨_, .expression redrawn.congruent, .expression derived⟩
  | equation left right =>
      rcases encloses.operator left.whole with ⟨before, after, rfl, here, there⟩
      rcases left.enclosed here with ⟨z, one, derivedLeft⟩
      rcases right.enclosed there with ⟨w, two, derivedRight⟩
      exact ⟨_, .equation one.congruent two.congruent, .equation derivedLeft derivedRight⟩

theorem parenthesizes_harmless (environment : Environment R) :
    Harmless environment Parenthesizes := by
  rintro deeper trail scopes scope x y ⟨⟩
  rfl

/-- Such statements evaluate alike in every context, with the same failure if they fail. -/
theorem RedrawnStatement.evaluate {tree other : Expr R} (redrawn : RedrawnStatement tree other)
    (environment : Environment R) (scopes : Scopes R) (scope : ScopeId) :
    QuantityCalculus.evaluate environment scopes scope tree =
      QuantityCalculus.evaluate environment scopes scope other := by
  cases redrawn with
  | expression congruent =>
      exact evaluate_congruent (parenthesizes_harmless environment) congruent scopes scope
  | _ => rfl

end

end Source
end QuantityCalculus
