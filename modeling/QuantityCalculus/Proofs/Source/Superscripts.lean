import QuantityCalculus.Proofs.Written.Settling

namespace QuantityCalculus
namespace Source

/-!
# Two ways to write superscripts

A run of superscripts stands for a power.  Preparation writes it with the sign of a power
alone, so that what follows the run comes to stand directly behind its last digit.  The
other way is to put the run in parentheses, which keeps it apart from all that follows.

Both ways of writing commute with the replacement of operators and root signs, which sees
nothing of a run but that it does not start with a blank, a parenthesis or an operand.  So
one text is left, in which only the superscripts are still to be written.
-/

/-! ## Writing runs -/

/-- What stands in front of a run, written with parentheses or without. -/
def runStart (enclosed : Bool) : List Char :=
  if enclosed then ['^', '('] else ['^']

/-- What stands behind a run. -/
def runEnd (enclosed : Bool) : List Char :=
  if enclosed then [')'] else []

/-- The text with every run of superscripts written as a power; the run may have begun before. -/
def writeRuns (enclosed inRun : Bool) : List Char -> List Char
  | [] => if inRun then runEnd enclosed else []
  | c :: rest =>
      match superscript? c with
      | some plain =>
          (if inRun then [] else runStart enclosed) ++ plain :: writeRuns enclosed true rest
      | none => (if inRun then runEnd enclosed else []) ++ c :: writeRuns enclosed false rest

/-- The character is no superscript. -/
def isOrdinary (c : Char) : Bool :=
  (superscript? c).isNone

/-- All superscripts, with their plain characters. -/
def superscripts : List (Char × Char) :=
  [('⁰', '0'), ('¹', '1'), ('²', '2'), ('³', '3'), ('⁴', '4'), ('⁵', '5'), ('⁶', '6'), ('⁷', '7'),
   ('⁸', '8'), ('⁹', '9'), ('⁻', '-')]

theorem mem_superscripts {c plain : Char} (raised : superscript? c = some plain) :
    (c, plain) ∈ superscripts := by
  unfold superscript? at raised
  split at raised <;> cases raised <;> decide

/-- A property of all superscripts and their plain characters. -/
theorem forall_superscripts (property : Char -> Char -> Prop)
    (each : forall entry, entry ∈ superscripts -> property entry.1 entry.2) {c plain : Char}
    (raised : superscript? c = some plain) : property c plain :=
  each (c, plain) (mem_superscripts raised)

theorem isOrdinary_iff {c : Char} : isOrdinary c = true <-> superscript? c = none :=
  Option.isNone_iff_eq_none

section

variable {enclosed : Bool} {c : Char}

theorem writeRuns_raised {plain : Char} (raised : superscript? c = some plain) (inRun : Bool)
    (rest : List Char) :
    writeRuns enclosed inRun (c :: rest) =
      (if inRun then [] else runStart enclosed) ++ plain :: writeRuns enclosed true rest := by
  rw [writeRuns, raised]

theorem writeRuns_other (other : superscript? c = none) (inRun : Bool) (rest : List Char) :
    writeRuns enclosed inRun (c :: rest) =
      (if inRun then runEnd enclosed else []) ++ c :: writeRuns enclosed false rest := by
  rw [writeRuns, other]

/-- Outside of a run, other characters stay as they are. -/
theorem writeRuns_ordinary (other : superscript? c = none) (rest : List Char) :
    writeRuns enclosed false (c :: rest) = c :: writeRuns enclosed false rest :=
  writeRuns_other other false rest

theorem lowerSuperscripts_eq (inRun : Bool) (text : List Char) :
    lowerSuperscripts inRun text = writeRuns false inRun text := by
  induction text generalizing inRun with
  | nil => cases inRun <;> rfl
  | cons c rest inductionHypothesis =>
      rw [lowerSuperscripts]
      split
      · rename_i plain raised
        rw [writeRuns_raised raised, inductionHypothesis]
        cases inRun <;> rfl
      · rename_i other
        rw [writeRuns_other other, inductionHypothesis]
        cases inRun <;> rfl

/-- Behind a text a run begins anew, unless it goes on there. -/
theorem writeRuns_append (inRun : Bool) (text : List Char) {more : List Char}
    (ends : forall c, c ∈ more.head? -> superscript? c = none) :
    writeRuns enclosed inRun (text ++ more) =
      writeRuns enclosed inRun text ++ writeRuns enclosed false more := by
  induction text generalizing inRun with
  | nil =>
      cases more with
      | nil => simp [writeRuns]
      | cons c rest =>
          rw [List.nil_append, writeRuns_ordinary (ends c rfl), writeRuns_other (ends c rfl)]
          rfl
  | cons c rest inductionHypothesis =>
      rw [List.cons_append, writeRuns, writeRuns]
      split <;> rw [inductionHypothesis, List.append_assoc, List.cons_append]

theorem forall_getLast?_of_cons {property : Char -> Prop} {rest : List Char}
    (each : forall d, d ∈ (c :: rest).getLast? -> property d) :
    forall d, d ∈ rest.getLast? -> property d := by
  intro d last
  refine each d ?_
  rw [List.getLast?_cons, Option.mem_def.mp last]
  rfl

/-- What stands in front of a run is written by itself. -/
theorem writeRuns_before {before more : List Char}
    (ends : forall c, c ∈ before.getLast? -> superscript? c = none) :
    writeRuns enclosed false (before ++ more) =
      writeRuns enclosed false before ++ writeRuns enclosed false more := by
  have general : forall inRun, (before = [] -> inRun = false) ->
      writeRuns enclosed inRun (before ++ more) =
        writeRuns enclosed inRun before ++ writeRuns enclosed false more := by
    induction before with
    | nil =>
        intro inRun outside
        rw [outside rfl]
        rfl
    | cons c before inductionHypothesis =>
        intro inRun _
        have endsToo := forall_getLast?_of_cons ends
        rw [List.cons_append]
        cases raised : superscript? c with
        | some plain =>
            have further : before ≠ [] := by
              rintro rfl
              rw [ends c rfl] at raised
              cases raised
            rw [writeRuns_raised raised, writeRuns_raised raised,
              inductionHypothesis endsToo true fun empty => absurd empty further,
              List.append_assoc, List.cons_append]
        | none =>
            rw [writeRuns_other raised, writeRuns_other raised,
              inductionHypothesis endsToo false fun _ => rfl, List.append_assoc,
              List.cons_append]
  exact general false fun _ => rfl

/-- Without superscripts there is nothing to write. -/
theorem writeRuns_eq_self {text : List Char} (ordinary : text.all isOrdinary = true) :
    writeRuns enclosed false text = text := by
  induction text with
  | nil => rfl
  | cons c rest inductionHypothesis =>
      rcases Bool.and_eq_true_iff.mp ordinary with ⟨first, others⟩
      rw [writeRuns_ordinary (isOrdinary_iff.mp first), inductionHypothesis others]

theorem writeRuns_eq_nil_iff (text : List Char) :
    writeRuns enclosed false text = [] <-> text = [] := by
  cases text with
  | nil => exact Iff.rfl
  | cons c rest =>
      refine iff_of_false ?_ (List.cons_ne_nil c rest)
      rw [writeRuns]
      split
      · exact List.append_ne_nil_of_right_ne_nil _ (List.cons_ne_nil _ _)
      · exact List.append_ne_nil_of_right_ne_nil _ (List.cons_ne_nil _ _)

theorem head?_writeRuns (text : List Char) :
    (writeRuns enclosed false text).head? =
      text.head?.map fun c => if isOrdinary c then c else '^' := by
  cases text with
  | nil => rfl
  | cons c rest =>
      cases raised : superscript? c with
      | none =>
          rw [writeRuns_ordinary raised, List.head?_cons, List.head?_cons, Option.map_some,
            if_pos (isOrdinary_iff.mpr raised)]
      | some plain =>
          have other : ¬ isOrdinary c = true := fun ordinary => by
            rw [isOrdinary_iff.mp ordinary] at raised
            cases raised
          rw [writeRuns_raised raised false, List.head?_cons, Option.map_some, if_neg other]
          cases enclosed <;> rfl

/-! ## One run -/

theorem writeRuns_inRun {run plain : List Char} (raised : run.map superscript? = plain.map some) :
    writeRuns enclosed true run = plain ++ runEnd enclosed := by
  induction run generalizing plain with
  | nil =>
      have nothing : plain = [] := List.map_eq_nil_iff.mp raised.symm
      subst nothing
      rfl
  | cons c run inductionHypothesis =>
      cases plain with
      | nil => cases raised
      | cons d plain =>
          rcases List.cons.inj raised with ⟨first, others⟩
          rw [writeRuns_raised first, inductionHypothesis others]
          rfl

/-- A run is written as its plain characters, with the signs of a power around them. -/
theorem writeRuns_run {run plain : List Char} (raised : run.map superscript? = plain.map some)
    (written : plain ≠ []) :
    writeRuns enclosed false run = runStart enclosed ++ (plain ++ runEnd enclosed) := by
  cases run with
  | nil => exact absurd (List.map_eq_nil_iff.mp raised.symm) written
  | cons c run =>
      cases plain with
      | nil => cases raised
      | cons d plain =>
          rcases List.cons.inj raised with ⟨first, others⟩
          rw [writeRuns_raised first, writeRuns_inRun others]
          rfl

theorem map_superscript?_signed {raised digits : List Char} (signs : Nat)
    (plain : raised.map superscript? = digits.map some) :
    (List.replicate signs '⁻' ++ raised).map superscript? =
      (List.replicate signs '-' ++ digits).map some := by
  rw [List.map_append, List.map_append, List.map_replicate, List.map_replicate, plain]
  rfl

/-- A run of signs and digits is written as the signs and the digits. -/
theorem writeRuns_signed {raised digits rest : List Char} (signs : Nat)
    (plain : raised.map superscript? = digits.map some) (written : digits ≠ [])
    (ends : forall c, c ∈ rest.head? -> superscript? c = none) :
    writeRuns enclosed false (List.replicate signs '⁻' ++ raised ++ rest) =
      runStart enclosed ++ (List.replicate signs '-' ++
        (digits ++ (runEnd enclosed ++ writeRuns enclosed false rest))) := by
  rw [writeRuns_append _ _ ends, writeRuns_run (map_superscript?_signed signs plain)
    (List.append_ne_nil_of_right_ne_nil _ written)]
  simp only [List.append_assoc]

end

/-! ## Runs of other characters -/

section

variable {enclosed : Bool} {property : Char -> Bool}

/-- Neither a superscript nor the sign in front of a run has the property. -/
def PassesRuns (property : Char -> Bool) : Prop :=
  property '^' = false ∧ forall c, property c = true -> isOrdinary c = true

theorem takeWhile_writeRuns (passes : PassesRuns property) (text : List Char) :
    (writeRuns enclosed false text).takeWhile property = text.takeWhile property ∧
      (writeRuns enclosed false text).dropWhile property =
        writeRuns enclosed false (text.dropWhile property) := by
  induction text with
  | nil => exact ⟨rfl, rfl⟩
  | cons c rest inductionHypothesis =>
      cases raised : superscript? c with
      | none =>
          rw [writeRuns_ordinary raised]
          cases holds : property c with
          | false =>
              simp only [List.takeWhile, List.dropWhile, holds]
              exact ⟨trivial, (writeRuns_ordinary raised rest).symm⟩
          | true =>
              simp only [List.takeWhile, List.dropWhile, holds]
              exact ⟨congrArg _ inductionHypothesis.1, inductionHypothesis.2⟩
      | some plain =>
          have fails : property c = false := by
            refine Bool.eq_false_iff.mpr fun holds => ?_
            rw [isOrdinary_iff.mp (passes.2 c holds)] at raised
            cases raised
          have start : ∃ more, writeRuns enclosed false (c :: rest) = '^' :: more := by
            rw [writeRuns_raised raised false]
            cases enclosed <;> exact ⟨_, rfl⟩
          rcases start with ⟨more, start⟩
          rw [start]
          simp only [List.takeWhile, List.dropWhile, passes.1, fails]
          exact ⟨trivial, start.symm⟩

theorem passesRuns_blank : PassesRuns Text.isBlank := by
  refine ⟨rfl, fun c blank => isOrdinary_iff.mpr ?_⟩
  cases raised : superscript? c with
  | none => rfl
  | some plain =>
      have visible : Text.isBlank c = false :=
        forall_superscripts (fun c _ => Text.isBlank c = false) (by decide) raised
      rw [visible] at blank
      cases blank

theorem passesRuns_rootOperand : PassesRuns isRootOperand := by
  refine ⟨rfl, fun c operand => isOrdinary_iff.mpr ?_⟩
  cases raised : superscript? c with
  | none => rfl
  | some plain =>
      have other : isRootOperand c = false :=
        forall_superscripts (fun c _ => isRootOperand c = false) (by decide) raised
      rw [other] at operand
      cases operand

/-- Other characters in front stay as they are. -/
theorem writeRuns_front {front : List Char} (ordinary : front.all isOrdinary = true)
    (more : List Char) :
    writeRuns enclosed false (front ++ more) = front ++ writeRuns enclosed false more := by
  induction front with
  | nil => rfl
  | cons c front inductionHypothesis =>
      rcases Bool.and_eq_true_iff.mp ordinary with ⟨first, others⟩
      rw [List.cons_append, writeRuns_ordinary (isOrdinary_iff.mp first),
        inductionHypothesis others, List.cons_append]

/-- Other characters in front, which end a run that began before. -/
theorem writeRuns_word {front : List Char} (ordinary : front.all isOrdinary = true)
    (written : front ≠ []) (inRun : Bool) (more : List Char) :
    writeRuns enclosed inRun (front ++ more) =
      (if inRun then runEnd enclosed else []) ++ (front ++ writeRuns enclosed false more) := by
  cases front with
  | nil => exact absurd rfl written
  | cons c front =>
      rcases Bool.and_eq_true_iff.mp ordinary with ⟨first, others⟩
      rw [List.cons_append, writeRuns_other (isOrdinary_iff.mp first), writeRuns_front others,
        List.cons_append]

theorem le_length_takeWhile {property : Char -> Bool} {front : List Char}
    (inside : front.all property = true) (more : List Char) :
    front.length ≤ ((front ++ more).takeWhile property).length := by
  rw [List.takeWhile_append_of_pos (List.all_eq_true.mp inside), List.length_append]
  exact Nat.le_add_right _ _

/-- The characters of which a power is written are replaced by nothing. -/
theorem runSigns_plain {c : Char} (member : c ∈ runStart enclosed ++ runEnd enclosed) :
    plainOperator c = c ∧ superscript? c = none ∧ c ≠ rootSign := by
  have among : c ∈ ['^', '(', ')'] := by
    cases enclosed
    · exact List.mem_of_mem_take (i := 1) member
    · exact member
  have each : (['^', '(', ')'].all fun c =>
      decide (plainOperator c = c ∧ superscript? c = none ∧ c ≠ rootSign)) = true := by
    decide
  exact of_decide_eq_true (List.all_eq_true.mp each c among)

/-- Neither are the plain characters of superscripts. -/
theorem plain_of_superscript? {c plain : Char} (raised : superscript? c = some plain) :
    plainOperator plain = plain ∧ superscript? plain = none ∧ plain ≠ rootSign ∧ c ≠ rootSign :=
  forall_superscripts (fun c plain => plainOperator plain = plain ∧ superscript? plain = none ∧
    plain ≠ rootSign ∧ c ≠ rootSign) (by decide) raised

/-- What is written in place of one superscript. -/
theorem runSigns_raised {c plain : Char} (raised : superscript? c = some plain) (inRun : Bool) :
    forall d, d ∈ (if inRun then [] else runStart enclosed) ++ [plain] ->
      plainOperator d = d ∧ superscript? d = none ∧ d ≠ rootSign := by
  intro d member
  rcases List.mem_append.mp member with sign | last
  · cases inRun
    · exact runSigns_plain (List.mem_append_left _ sign)
    · cases sign
  · cases List.mem_singleton.mp last
    have facts := plain_of_superscript? raised
    exact ⟨facts.1, facts.2.1, facts.2.2.1⟩

theorem runSigns_end (inRun : Bool) :
    forall d, d ∈ (if inRun then runEnd enclosed else []) ->
      plainOperator d = d ∧ superscript? d = none ∧ d ≠ rootSign := by
  intro d member
  cases inRun
  · cases member
  · exact runSigns_plain (List.mem_append_right _ member)

end

/-! ## The steps of preparation -/

theorem superscript?_plainOperator (c : Char) :
    superscript? (plainOperator c) = superscript? c := by
  unfold plainOperator
  split
  · rename_i sign
    simp only [Bool.or_eq_true, decide_eq_true_eq] at sign
    rcases sign with (rfl | rfl) | rfl <;> rfl
  · split
    · rename_i sign
      subst sign
      rfl
    · split
      · rename_i sign
        simp only [Bool.or_eq_true, decide_eq_true_eq] at sign
        rcases sign with rfl | rfl <;> rfl
      · rfl

section

variable {enclosed : Bool}

theorem map_plainOperator_writeRuns (inRun : Bool) (text : List Char) :
    (writeRuns enclosed inRun text).map plainOperator =
      writeRuns enclosed inRun (text.map plainOperator) := by
  have kept : forall front : List Char, (forall d, d ∈ front -> plainOperator d = d) ->
      front.map plainOperator = front :=
    fun front each => (List.map_congr_left each).trans (List.map_id _)
  induction text generalizing inRun with
  | nil => exact kept _ fun d member => (runSigns_end inRun d member).1
  | cons c rest inductionHypothesis =>
      rw [List.map_cons]
      cases raised : superscript? c with
      | some plain =>
          have raisedToo := (superscript?_plainOperator c).trans raised
          rw [writeRuns_raised raised, writeRuns_raised raisedToo, List.append_cons,
            List.map_append, inductionHypothesis,
            kept _ fun d member => (runSigns_raised raised inRun d member).1,
            ← List.append_cons]
      | none =>
          have otherToo := (superscript?_plainOperator c).trans raised
          rw [writeRuns_other raised, writeRuns_other otherToo, List.map_append, List.map_cons,
            inductionHypothesis, kept _ fun d member => (runSigns_end inRun d member).1]

/-- What is written leaves no superscripts. -/
theorem all_isOrdinary_writeRuns (inRun : Bool) (text : List Char) :
    (writeRuns enclosed inRun text).all isOrdinary = true := by
  rw [List.all_eq_true]
  induction text generalizing inRun with
  | nil => exact fun d member => isOrdinary_iff.mpr (runSigns_end inRun d member).2.1
  | cons c rest inductionHypothesis =>
      intro d member
      cases raised : superscript? c with
      | some plain =>
          rw [writeRuns_raised raised, List.append_cons] at member
          rcases List.mem_append.mp member with sign | later
          · exact isOrdinary_iff.mpr (runSigns_raised raised inRun d sign).2.1
          · exact inductionHypothesis true d later
      | none =>
          rw [writeRuns_other raised] at member
          rcases List.mem_append.mp member with sign | later
          · exact isOrdinary_iff.mpr (runSigns_end inRun d sign).2.1
          · rcases List.mem_cons.mp later with rfl | later
            · exact isOrdinary_iff.mpr raised
            · exact inductionHypothesis false d later

theorem lowerSuperscripts_writeRuns (text : List Char) :
    lowerSuperscripts false (writeRuns enclosed false text) = writeRuns enclosed false text := by
  rw [lowerSuperscripts_eq, writeRuns_eq_self (all_isOrdinary_writeRuns false text)]

/-- A parenthesis stands at the front of what is written only if it stood there before. -/
theorem opens_writeRuns (text : List Char) :
    ((writeRuns enclosed false text).head? == some '(') = (text.head? == some '(') := by
  rw [head?_writeRuns]
  cases text with
  | nil => rfl
  | cons c rest =>
      rw [List.head?_cons, Option.map_some]
      cases raised : superscript? c with
      | none => rw [if_pos (isOrdinary_iff.mpr raised)]
      | some plain =>
          have other : isOrdinary c = false ∧ c ≠ '(' :=
            forall_superscripts (fun c _ => isOrdinary c = false ∧ c ≠ '(') (by decide) raised
          simp [other.1, other.2]

theorem blanks_isOrdinary (text : List Char) :
    (text.takeWhile Text.isBlank).all isOrdinary = true := by
  rw [List.all_eq_true]
  intro c member
  exact passesRuns_blank.2 c (List.all_eq_true.mp (takeWhile_all Text.isBlank text) c member)

theorem operand_isOrdinary (text : List Char) :
    (text.takeWhile isRootOperand).all isOrdinary = true := by
  rw [List.all_eq_true]
  intro c member
  exact passesRuns_rootOperand.2 c (List.all_eq_true.mp (takeWhile_all isRootOperand text) c member)

/-- Blanks and the parenthesis behind them hold no superscripts. -/
theorem blanks_within_call {rest : List Char}
    (opens : ((rest.dropWhile Text.isBlank).head? == some '(') = true) :
    (rest.takeWhile Text.isBlank).length + 1 ≤ (rest.takeWhile isOrdinary).length := by
  have split := List.takeWhile_append_dropWhile (p := Text.isBlank) (l := rest)
  cases behind : rest.dropWhile Text.isBlank with
  | nil =>
      rw [behind] at opens
      cases opens
  | cons d more =>
      rw [behind] at opens split
      have parenthesis : d = '(' := by simpa using opens
      subst parenthesis
      rw [List.append_cons] at split
      have inside : (rest.takeWhile Text.isBlank ++ ['(']).all isOrdinary = true := by
        rw [List.all_append, blanks_isOrdinary]
        rfl
      have bound := le_length_takeWhile inside more
      rw [split, List.length_append] at bound
      exact bound

/-- Blanks and the operand behind them hold no superscripts. -/
theorem operand_within_call (rest : List Char) :
    (rest.takeWhile Text.isBlank).length +
        ((rest.dropWhile Text.isBlank).takeWhile isRootOperand).length ≤
      (rest.takeWhile isOrdinary).length := by
  have inside : (rest.takeWhile Text.isBlank ++
      (rest.dropWhile Text.isBlank).takeWhile isRootOperand).all isOrdinary = true := by
    rw [List.all_append, blanks_isOrdinary, operand_isOrdinary]
    rfl
  have bound := le_length_takeWhile inside
    ((rest.dropWhile Text.isBlank).dropWhile isRootOperand)
  rw [List.append_assoc, List.takeWhile_append_dropWhile, List.takeWhile_append_dropWhile,
    List.length_append] at bound
  exact bound

/-- A step that replaces root signs only, from left to right. -/
structure RootPass (pass : Nat -> List Char -> List Char) : Prop where
  ended : forall replaced, pass replaced [] = []
  skips : forall replaced c rest, pass (replaced + 1) (c :: rest) = pass replaced rest
  keeps : forall c rest, c ≠ rootSign -> pass 0 (c :: rest) = c :: pass 0 rest

variable {pass : Nat -> List Char -> List Char}

theorem RootPass.front (rootPass : RootPass pass) {front : List Char}
    (noRoot : forall c, c ∈ front -> c ≠ rootSign) (text : List Char) :
    pass 0 (front ++ text) = front ++ pass 0 text := by
  induction front with
  | nil => rfl
  | cons c front inductionHypothesis =>
      rw [List.cons_append, rootPass.keeps _ _ (noRoot c List.mem_cons_self),
        inductionHypothesis fun d member => noRoot d (List.mem_cons_of_mem c member),
        List.cons_append]

/-- Such a step sees nothing of the runs if it sees nothing of them behind a root sign.  By
induction on the text; what was already replaced of it lies in front of the next run. -/
theorem RootPass.writeRuns (rootPass : RootPass pass)
    (atRoot : forall rest, (forall replaced, replaced ≤ (rest.takeWhile isOrdinary).length ->
        pass replaced (writeRuns enclosed false rest) =
          Source.writeRuns enclosed false (pass replaced rest)) -> forall inRun,
      (if inRun then runEnd enclosed else []) ++
          pass 0 (rootSign :: Source.writeRuns enclosed false rest) =
        Source.writeRuns enclosed inRun (pass 0 (rootSign :: rest)))
    {replaced : Nat} {inRun : Bool} {text : List Char}
    (inside : replaced ≤ (text.takeWhile isOrdinary).length)
    (outside : replaced ≠ 0 -> inRun = false) :
    pass replaced (Source.writeRuns enclosed inRun text) =
      Source.writeRuns enclosed inRun (pass replaced text) := by
  have ends : forall inRun : Bool, forall d, d ∈ (if inRun then runEnd enclosed else []) ->
      d ≠ rootSign := fun inRun d member => (runSigns_end inRun d member).2.2
  induction text generalizing replaced inRun with
  | nil =>
      cases replaced with
      | zero =>
          have front := rootPass.front (ends inRun) []
          rw [List.append_nil, rootPass.ended, List.append_nil] at front
          rwa [rootPass.ended]
      | succ replaced => exact absurd inside (Nat.not_succ_le_zero _)
  | cons c rest inductionHypothesis =>
      cases replaced with
      | succ replaced =>
          cases outside (Nat.succ_ne_zero _)
          cases ordinary : isOrdinary c with
          | false =>
              rw [List.takeWhile_cons_of_neg (Bool.eq_false_iff.mp ordinary)] at inside
              exact absurd inside (Nat.not_succ_le_zero _)
          | true =>
              rw [List.takeWhile_cons_of_pos ordinary] at inside
              rw [writeRuns_ordinary (isOrdinary_iff.mp ordinary), rootPass.skips, rootPass.skips]
              exact inductionHypothesis (Nat.le_of_succ_le_succ inside) fun _ => rfl
      | zero =>
          have later := fun inRun => @inductionHypothesis 0 inRun (Nat.zero_le _) nofun
          cases raised : superscript? c with
          | some plain =>
              have noRoot := (plain_of_superscript? raised).2.2.2
              rw [rootPass.keeps c rest noRoot, writeRuns_raised raised, writeRuns_raised raised,
                List.append_cons,
                rootPass.front fun d member => (runSigns_raised raised inRun d member).2.2,
                later, ← List.append_cons]
          | none =>
              rw [writeRuns_other raised, rootPass.front (ends inRun)]
              by_cases root : c = rootSign
              · subst root
                exact atRoot rest (fun _ within => inductionHypothesis within fun _ => rfl) inRun
              · rw [rootPass.keeps _ _ root, rootPass.keeps _ _ root, later,
                  writeRuns_other raised]

theorem rootPass_calls : RootPass nameRootCalls where
  ended := fun replaced => by cases replaced <;> rfl
  skips := fun _ _ _ => rfl
  keeps := fun c rest other => by rw [nameRootCalls_cons, if_neg (by simp [other])]

theorem rootPass_operands : RootPass nameRootOperands where
  ended := fun replaced => by cases replaced <;> rfl
  skips := fun _ _ _ => rfl
  keeps := fun c rest other => by rw [nameRootOperands_cons, if_neg (by simp [other])]

theorem nameRootCalls_writeRuns (text : List Char) :
    nameRootCalls 0 (writeRuns enclosed false text) =
      writeRuns enclosed false (nameRootCalls 0 text) := by
  refine rootPass_calls.writeRuns ?_ (Nat.zero_le _) nofun
  intro rest later inRun
  rw [nameRootCalls_cons, nameRootCalls_cons rootSign rest, Text.trimStart, Text.trimStart,
    (takeWhile_writeRuns passesRuns_blank rest).1, (takeWhile_writeRuns passesRuns_blank rest).2,
    opens_writeRuns]
  by_cases opens : (decide (rootSign = rootSign) &&
      (rest.dropWhile Text.isBlank).head? == some '(') = true
  · have within := blanks_within_call (Bool.and_eq_true_iff.mp opens).2
    rw [if_pos opens, if_pos opens, later _ within, writeRuns_word (by decide) (by decide)]
  · rw [if_neg opens, if_neg opens, later 0 (Nat.zero_le _), writeRuns_other (by decide)]

theorem nameRootOperands_writeRuns (text : List Char) :
    nameRootOperands 0 (writeRuns enclosed false text) =
      writeRuns enclosed false (nameRootOperands 0 text) := by
  refine rootPass_operands.writeRuns ?_ (Nat.zero_le _) nofun
  intro rest later inRun
  rw [nameRootOperands_cons, nameRootOperands_cons rootSign rest, Text.trimStart, Text.trimStart,
    (takeWhile_writeRuns passesRuns_blank rest).1, (takeWhile_writeRuns passesRuns_blank rest).2,
    (takeWhile_writeRuns passesRuns_rootOperand _).1]
  by_cases operand : (decide (rootSign = rootSign) &&
      !((rest.dropWhile Text.isBlank).takeWhile isRootOperand).isEmpty) = true
  · have ordinary := operand_isOrdinary (rest.dropWhile Text.isBlank)
    rw [if_pos operand, if_pos operand, later _ (operand_within_call rest), List.append_cons,
      List.append_cons _ ')' (nameRootOperands _ rest)]
    refine (writeRuns_word ?_ ?_ inRun _).symm
    · rw [List.all_append, List.all_append, ordinary]
      rfl
    · exact List.append_ne_nil_of_right_ne_nil _ (List.cons_ne_nil _ _)
  · rw [if_neg operand, if_neg operand, later 0 (Nat.zero_le _), writeRuns_other (by decide)]

/-- The text with all its signs plain but for the superscripts. -/
def plainAroundRuns (text : List Char) : List Char :=
  nameRootOperands 0 (nameRootCalls 0 (text.map plainOperator))

/-- What the steps of preparation make of a text, written last. -/
theorem plainSigns_eq (text : List Char) :
    plainSigns text = writeRuns false false (plainAroundRuns text) := by
  rw [plainSigns, lowerSuperscripts_eq, nameRootCalls_writeRuns, nameRootOperands_writeRuns,
    plainAroundRuns]

/-- A text that is written already comes to the same, written in its way. -/
theorem plainSigns_writeRuns (text : List Char) :
    plainSigns (writeRuns enclosed false text) =
      writeRuns enclosed false (plainAroundRuns text) := by
  rw [plainSigns, map_plainOperator_writeRuns, lowerSuperscripts_writeRuns,
    nameRootCalls_writeRuns, nameRootOperands_writeRuns, plainAroundRuns]

end

end Source
end QuantityCalculus
