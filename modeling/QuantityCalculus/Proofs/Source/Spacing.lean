import QuantityCalculus.Proofs.Source.PreparedRuns

namespace QuantityCalculus
namespace Source

/-!
# Texts with narrower gaps

Where a text has several blanks it might as well have fewer, or others, as long as one is
left.  That blanks separate tokens and are dropped does not yet show this: a root sign looks
past the blanks behind it, a run of superscripts ends at one, and what a unit bracket holds
keeps its blanks.

So two texts that differ in this way are put into a relation, which each step of preparation
keeps.  Gaps are never widened, for a text may be too long to be read.  Joining the words of
a text by single spaces narrows its gaps.
-/

/-- All blanks. -/
def blanks : List Char :=
  Text.blankCharacters.flatMap fun range =>
    (List.range' range.1 (range.2 + 1 - range.1)).map Char.ofNat

theorem mem_blanks {c : Char} (blank : Text.isBlank c = true) : c ∈ blanks := by
  rcases (Text.CharacterSet.covers_iff _ c).mp blank with ⟨range, member, above, below⟩
  refine List.mem_flatMap.mpr ⟨range, member, List.mem_map.mpr ⟨c.toNat, ?_, Char.ofNat_toNat c⟩⟩
  rw [List.mem_range'_1]
  omega

/-- A property of all blanks. -/
theorem forall_blanks (property : Char -> Prop) [DecidablePred property]
    (each : blanks.all (fun c => decide (property c)) = true) {c : Char}
    (blank : Text.isBlank c = true) : property c :=
  of_decide_eq_true (List.all_eq_true.mp each c (mem_blanks blank))

/-- The prompt has no blanks. -/
theorem prompt_visible {c : Char} (member : c ∈ prompt) : Text.isBlank c = false := by
  have all : (prompt.all fun c => !Text.isBlank c) = true := by decide
  exact (Bool.not_eq_true' _).mp (List.all_eq_true.mp all c member)

/-- A run of blanks that is not empty. -/
structure IsGap (run : List Char) : Prop where
  written : run ≠ []
  blank : run.all Text.isBlank = true

/-- The other text is the first one but for its gaps, which may be narrower, and of other
blanks. -/
inductive Narrowed : List Char -> List Char -> Prop
  | nil : Narrowed [] []
  | visible {c : Char} {text other : List Char} (seen : Text.isBlank c = false) :
      Narrowed text other -> Narrowed (c :: text) (c :: other)
  | gap {run others text other : List Char} (gap : IsGap run) (gapToo : IsGap others)
      (narrower : others.length ≤ run.length) :
      Narrowed text other -> Narrowed (run ++ text) (others ++ other)

namespace IsGap

variable {run : List Char}

theorem each (gap : IsGap run) : forall c, c ∈ run -> Text.isBlank c = true :=
  List.all_eq_true.mp gap.blank

theorem singleton {c : Char} (blank : Text.isBlank c = true) : IsGap [c] :=
  ⟨List.cons_ne_nil c [], by rw [List.all_cons, blank, List.all_nil, Bool.and_self]⟩

/-- A gap starts with a blank. -/
theorem parts (gap : IsGap run) :
    ∃ c rest, run = c :: rest ∧ Text.isBlank c = true := by
  cases run with
  | nil => exact absurd rfl gap.written
  | cons c rest => exact ⟨c, rest, rfl, gap.each c List.mem_cons_self⟩

theorem reverse (gap : IsGap run) : IsGap run.reverse where
  written := fun none => gap.written (List.reverse_eq_nil_iff.mp none)
  blank := by rw [List.all_reverse, gap.blank]

end IsGap

namespace Narrowed

variable {text other : List Char}

theorem refl (text : List Char) : Narrowed text text := by
  induction text with
  | nil => exact .nil
  | cons c rest inductionHypothesis =>
      cases blank : Text.isBlank c with
      | false => exact .visible blank inductionHypothesis
      | true => exact .gap (.singleton blank) (.singleton blank) (Nat.le_refl _) inductionHypothesis

theorem append {more others : List Char} (first : Narrowed text other)
    (second : Narrowed more others) : Narrowed (text ++ more) (other ++ others) := by
  induction first with
  | nil => exact second
  | visible seen _ inductionHypothesis => exact .visible seen inductionHypothesis
  | gap gap gapToo narrower _ inductionHypothesis =>
      rw [List.append_assoc, List.append_assoc]
      exact .gap gap gapToo narrower inductionHypothesis

/-- The same text may stand in front of both. -/
theorem behind (front : List Char) (narrowed : Narrowed text other) :
    Narrowed (front ++ text) (front ++ other) :=
  (refl front).append narrowed

theorem reverse (narrowed : Narrowed text other) : Narrowed text.reverse other.reverse := by
  induction narrowed with
  | nil => exact .nil
  | visible seen _ inductionHypothesis =>
      rw [List.reverse_cons, List.reverse_cons]
      exact inductionHypothesis.append (.visible seen .nil)
  | @gap run others text other gap gapToo narrower _ inductionHypothesis =>
      rw [List.reverse_append, List.reverse_append]
      have narrowerToo := narrower
      rw [← List.length_reverse, ← @List.length_reverse _ run] at narrowerToo
      have last := Narrowed.gap gap.reverse gapToo.reverse narrowerToo .nil
      rw [List.append_nil, List.append_nil] at last
      exact inductionHypothesis.append last

theorem length_le (narrowed : Narrowed text other) : other.length ≤ text.length := by
  induction narrowed with
  | nil => exact Nat.le_refl _
  | visible _ _ inductionHypothesis => exact Nat.succ_le_succ inductionHypothesis
  | gap _ _ narrower _ inductionHypothesis =>
      rw [List.length_append, List.length_append]
      exact Nat.add_le_add narrower inductionHypothesis

theorem eq_nil_iff (narrowed : Narrowed text other) : text = [] <-> other = [] := by
  cases narrowed with
  | nil => exact Iff.rfl
  | visible _ _ => exact iff_of_false (List.cons_ne_nil _ _) (List.cons_ne_nil _ _)
  | gap gap gapToo _ _ =>
      exact iff_of_false (List.append_ne_nil_of_left_ne_nil gap.written _)
        (List.append_ne_nil_of_left_ne_nil gapToo.written _)

/-! ## The front of a text -/

/-- Visible characters stand in front of both texts or of none. -/
theorem starts_iff {front : List Char} (narrowed : Narrowed text other)
    (seen : forall c, c ∈ front -> Text.isBlank c = false) :
    front <+: text <-> front <+: other := by
  induction front generalizing text other with
  | nil => exact iff_of_true List.nil_prefix List.nil_prefix
  | cons c front inductionHypothesis =>
      have noGap : forall {run text : List Char}, IsGap run -> ¬ c :: front <+: run ++ text := by
        intro run text gap starts
        rcases gap.parts with ⟨d, rest, rfl, blank⟩
        cases (List.cons_prefix_cons.mp starts).1
        rw [seen c List.mem_cons_self] at blank
        cases blank
      cases narrowed with
      | nil => exact Iff.rfl
      | visible _ narrowed =>
          rw [List.cons_prefix_cons, List.cons_prefix_cons,
            inductionHypothesis narrowed fun d member => seen d (List.mem_cons_of_mem c member)]
      | gap gap gapToo _ _ => exact iff_of_false (noGap gap) (noGap gapToo)

theorem head?_iff {c : Char} (narrowed : Narrowed text other) (seen : Text.isBlank c = false) :
    text.head? = some c <-> other.head? = some c := by
  have starts : forall text : List Char, text.head? = some c <-> [c] <+: text :=
    fun text => List.head?_eq_some_iff.trans (exists_congr fun _ => eq_comm)
  rw [starts, starts]
  exact narrowed.starts_iff (by simpa using seen)

/-- A visible character in front is followed by a narrowed text. -/
theorem first {c : Char} (narrowed : Narrowed (c :: text) other)
    (seen : Text.isBlank c = false) : ∃ later, other = c :: later ∧ Narrowed text later := by
  generalize whole : c :: text = parts at narrowed
  cases narrowed with
  | nil => cases whole
  | visible _ narrowed =>
      cases whole
      exact ⟨_, rfl, narrowed⟩
  | gap gap _ _ _ =>
      rcases gap.parts with ⟨d, rest, rfl, blank⟩
      cases whole
      rw [seen] at blank
      cases blank

theorem front {front : List Char} (narrowed : Narrowed (front ++ text) other)
    (seen : forall c, c ∈ front -> Text.isBlank c = false) :
    ∃ later, other = front ++ later ∧ Narrowed text later := by
  induction front generalizing other with
  | nil => exact ⟨other, rfl, narrowed⟩
  | cons c front inductionHypothesis =>
      rcases first narrowed (seen c List.mem_cons_self) with ⟨others, rfl, further⟩
      rcases inductionHypothesis further fun d member => seen d (List.mem_cons_of_mem c member)
        with ⟨later, rfl, behind⟩
      exact ⟨later, rfl, behind⟩

theorem eq_of_seen (narrowed : Narrowed text other)
    (seen : forall c, c ∈ text -> Text.isBlank c = false) : other = text := by
  rw [← List.append_nil text] at narrowed
  rcases narrowed.front seen with ⟨later, rfl, none⟩
  rw [none.eq_nil_iff.mp rfl, List.append_nil]

/-- A run of characters ends at the same place if all blanks belong to it, or none. -/
theorem cut {property : Char -> Bool} {flag : Bool}
    (uniform : forall c, Text.isBlank c = true -> property c = flag)
    (narrowed : Narrowed text other) :
    Narrowed (text.takeWhile property) (other.takeWhile property) ∧
      Narrowed (text.dropWhile property) (other.dropWhile property) := by
  induction narrowed with
  | nil => exact ⟨.nil, .nil⟩
  | @visible c text other seen narrowed inductionHypothesis =>
      cases holds : property c with
      | false =>
          simp only [List.takeWhile, List.dropWhile, holds]
          exact ⟨.nil, .visible seen narrowed⟩
      | true =>
          simp only [List.takeWhile, List.dropWhile, holds]
          exact ⟨.visible seen inductionHypothesis.1, inductionHypothesis.2⟩
  | @gap run others text other gap gapToo narrower narrowed inductionHypothesis =>
      cases flag with
      | true =>
          have each : forall run, IsGap run -> forall c, c ∈ run -> property c = true :=
            fun run gap c member => uniform c (gap.each c member)
          rw [List.takeWhile_append_of_pos (each run gap),
            List.takeWhile_append_of_pos (each others gapToo),
            List.dropWhile_append_of_pos (each run gap),
            List.dropWhile_append_of_pos (each others gapToo)]
          exact ⟨.gap gap gapToo narrower inductionHypothesis.1, inductionHypothesis.2⟩
      | false =>
          rcases gap.parts with ⟨c, run, rfl, blank⟩
          rcases gapToo.parts with ⟨d, others, rfl, blankToo⟩
          rw [List.cons_append, List.cons_append]
          simp only [List.takeWhile, List.dropWhile, uniform c blank, uniform d blankToo]
          exact ⟨.nil, .gap gap gapToo narrower narrowed⟩

/-! ## The ends of a text -/

theorem trimStart (narrowed : Narrowed text other) :
    Narrowed (Text.trimStart text) (Text.trimStart other) :=
  (narrowed.cut fun _ blank => blank).2

theorem trim (narrowed : Narrowed text other) : Narrowed (Text.trim text) (Text.trim other) :=
  narrowed.trimStart.reverse.trimStart.reverse

theorem prompt_iff (narrowed : Narrowed text other) :
    text.take 3 = prompt <-> other.take 3 = prompt := by
  have starts : forall text : List Char, text.take 3 = prompt <-> prompt <+: text :=
    fun text => eq_comm.trans List.prefix_iff_eq_take.symm
  rw [starts, starts]
  exact narrowed.starts_iff fun _ => prompt_visible

theorem bare (narrowed : Narrowed text other) : Narrowed (bare text) (bare other) := by
  have trimmed := narrowed.trim
  unfold Source.bare
  dsimp only
  by_cases starts : (Text.trim text).take 3 = prompt
  · rw [if_pos starts, if_pos (trimmed.prompt_iff.mp starts)]
    rw [← List.take_append_drop 3 (Text.trim text), starts] at trimmed
    rcases trimmed.front (fun _ => prompt_visible) with ⟨later, same, narrowed⟩
    have behindPrompt : (Text.trim other).drop 3 = later := by
      rw [same]
      rfl
    rw [behindPrompt]
    exact narrowed.trim
  · rw [if_neg starts, if_neg fun other => starts (trimmed.prompt_iff.mpr other)]
    exact trimmed

end Narrowed

/-! ## Operators and superscripts -/

theorem isBlank_plainOperator (c : Char) : Text.isBlank (plainOperator c) = Text.isBlank c := by
  unfold plainOperator
  split
  · rename_i sign
    simp only [Bool.or_eq_true, decide_eq_true_eq] at sign
    rcases sign with (rfl | rfl) | rfl <;> rfl
  · split
    · rename_i sign
      subst sign
      rfl
    · split
      · rename_i sign
        simp only [Bool.or_eq_true, decide_eq_true_eq] at sign
        rcases sign with rfl | rfl <;> rfl
      · rfl

theorem IsGap.plainOperators {run : List Char} (gap : IsGap run) :
    IsGap (run.map plainOperator) where
  written := fun none => gap.written (List.map_eq_nil_iff.mp none)
  blank := by
    rw [List.all_map, ← gap.blank]
    congr 1
    funext c
    exact isBlank_plainOperator c

/-- No blank is a superscript. -/
theorem IsGap.ordinary {run : List Char} (gap : IsGap run) : run.all isOrdinary = true :=
  List.all_eq_true.mpr fun c member => passesRuns_blank.2 c (gap.each c member)

namespace Narrowed

variable {text other : List Char}

theorem plainOperators (narrowed : Narrowed text other) :
    Narrowed (text.map plainOperator) (other.map plainOperator) := by
  induction narrowed with
  | nil => exact .nil
  | visible seen _ inductionHypothesis =>
      exact .visible ((isBlank_plainOperator _).trans seen) inductionHypothesis
  | gap gap gapToo narrower _ inductionHypothesis =>
      rw [List.map_append, List.map_append]
      refine .gap gap.plainOperators gapToo.plainOperators ?_ inductionHypothesis
      rwa [List.length_map, List.length_map]

theorem writeRuns (narrowed : Narrowed text other) (enclosed inRun : Bool) :
    Narrowed (writeRuns enclosed inRun text) (writeRuns enclosed inRun other) := by
  induction narrowed generalizing inRun with
  | nil => exact refl _
  | @visible c text other seen _ inductionHypothesis =>
      cases raised : superscript? c with
      | some plain =>
          rw [writeRuns_raised raised, writeRuns_raised raised]
          exact behind _ (.visible (plain_not_isBlank raised) (inductionHypothesis true))
      | none =>
          rw [writeRuns_other raised, writeRuns_other raised]
          exact behind _ (.visible seen (inductionHypothesis false))
  | gap gap gapToo narrower _ inductionHypothesis =>
      rw [writeRuns_word gap.ordinary gap.written, writeRuns_word gapToo.ordinary gapToo.written]
      exact behind _ (.gap gap gapToo narrower (inductionHypothesis false))

end Narrowed

/-! ## Root signs -/

section

variable {pass : Nat -> List Char -> List Char}

theorem RootPass.skip (rootPass : RootPass pass) (front text : List Char) :
    pass front.length (front ++ text) = pass 0 text := by
  induction front with
  | nil => rfl
  | cons c front inductionHypothesis =>
      rw [List.length_cons, List.cons_append, rootPass.skips, inductionHypothesis]

/-- The step goes on behind what was replaced along with a root sign: blanks, and what stands
behind them. -/
theorem RootPass.further (rootPass : RootPass pass) {rest front later : List Char}
    (starts : Text.trimStart rest = front ++ later) :
    pass ((rest.takeWhile Text.isBlank).length + front.length) rest = pass 0 later := by
  have whole : (rest.takeWhile Text.isBlank ++ front) ++ later = rest := by
    rw [List.append_assoc, ← starts, Text.trimStart, List.takeWhile_append_dropWhile]
  have skipped := rootPass.skip (rest.takeWhile Text.isBlank ++ front) later
  rwa [List.length_append, whole] at skipped

/-- A step that replaces root signs keeps texts apart by blanks only, if it does so behind a
root sign, and there it may go on with any shorter text. -/
theorem RootPass.narrowed (rootPass : RootPass pass)
    (atRoot : forall {rest more : List Char}, Narrowed rest more ->
      (forall {later others : List Char}, later.length ≤ rest.length -> Narrowed later others ->
        Narrowed (pass 0 later) (pass 0 others)) ->
      Narrowed (pass 0 (rootSign :: rest)) (pass 0 (rootSign :: more)))
    {text other : List Char} (narrowed : Narrowed text other) :
    Narrowed (pass 0 text) (pass 0 other) := by
  have noRoot : forall {run : List Char}, IsGap run -> forall c, c ∈ run -> c ≠ rootSign := by
    rintro run gap c member rfl
    have blank := gap.each rootSign member
    cases blank
  induction length : text.length using Nat.strongRecOn generalizing text other with
  | ind length inductionHypothesis =>
      subst length
      cases narrowed with
      | nil => exact Narrowed.refl _
      | @visible c text other seen narrowed =>
          by_cases root : c = rootSign
          · subst root
            exact atRoot narrowed fun shorter narrowed =>
              inductionHypothesis _ (Nat.lt_succ_of_le shorter) narrowed rfl
          · rw [rootPass.keeps c text root, rootPass.keeps c other root]
            exact .visible seen (inductionHypothesis _ (Nat.lt_succ_self _) narrowed rfl)
      | @gap run others text other gap gapToo narrower narrowed =>
          have shorter : text.length < (run ++ text).length := by
            have positive := List.length_pos_iff.mpr gap.written
            rw [List.length_append]
            omega
          rw [rootPass.front (noRoot gap), rootPass.front (noRoot gapToo)]
          exact .gap gap gapToo narrower (inductionHypothesis _ shorter narrowed rfl)

end

/-- No blank belongs to the operand of a root sign. -/
theorem rootOperand_of_blank {c : Char} (blank : Text.isBlank c = true) :
    isRootOperand c = false :=
  forall_blanks (fun c => isRootOperand c = false) (by decide) blank

theorem length_trimStart_le (text : List Char) : (Text.trimStart text).length ≤ text.length :=
  (List.dropWhile_suffix Text.isBlank).length_le

namespace Narrowed

variable {text other : List Char}

theorem nameRootCalls (narrowed : Narrowed text other) :
    Narrowed (nameRootCalls 0 text) (nameRootCalls 0 other) := by
  refine rootPass_calls.narrowed ?_ narrowed
  intro rest more narrowed later
  have trimmed := narrowed.trimStart
  rw [nameRootCalls_cons, nameRootCalls_cons]
  by_cases opens : (Text.trimStart rest).head? = some '('
  · rcases List.head?_eq_some_iff.mp opens with ⟨inside, starts⟩
    rw [starts] at trimmed
    rcases trimmed.first rfl with ⟨others, startsToo, narrowed⟩
    have bound := length_trimStart_le rest
    rw [starts, List.length_cons] at bound
    rw [if_pos (by rw [starts]; rfl), if_pos (by rw [startsToo]; rfl)]
    have opened : Text.trimStart rest = ['('] ++ inside := starts
    have openedToo : Text.trimStart more = ['('] ++ others := startsToo
    have first := rootPass_calls.further opened
    have second := rootPass_calls.further openedToo
    rw [List.length_singleton] at first second
    rw [first, second]
    exact behind _ (later (Nat.le_of_succ_le bound) narrowed)
  · have closed := fun opensToo => opens ((trimmed.head?_iff rfl).mpr opensToo)
    rw [if_neg (by simpa using opens), if_neg (by simpa using closed)]
    exact .visible rfl (later (Nat.le_refl _) narrowed)

theorem nameRootOperands (narrowed : Narrowed text other) :
    Narrowed (nameRootOperands 0 text) (nameRootOperands 0 other) := by
  refine rootPass_operands.narrowed ?_ narrowed
  intro rest more narrowed later
  rcases narrowed.trimStart.cut fun _ => rootOperand_of_blank with ⟨operands, laterParts⟩
  have seen : forall c, c ∈ (Text.trimStart rest).takeWhile isRootOperand ->
      Text.isBlank c = false := by
    intro c member
    refine Bool.eq_false_iff.mpr fun blank => ?_
    have operand := List.all_eq_true.mp (takeWhile_all isRootOperand _) c member
    rw [rootOperand_of_blank blank] at operand
    cases operand
  have same := operands.eq_of_seen seen
  rw [nameRootOperands_cons, nameRootOperands_cons, same]
  split
  · have bound : ((Text.trimStart rest).dropWhile isRootOperand).length ≤ rest.length :=
      Nat.le_trans (List.dropWhile_suffix isRootOperand).length_le (length_trimStart_le rest)
    have first := rootPass_operands.further
      (List.takeWhile_append_dropWhile (p := isRootOperand) (l := Text.trimStart rest)).symm
    have second := rootPass_operands.further
      (List.takeWhile_append_dropWhile (p := isRootOperand) (l := Text.trimStart more)).symm
    rw [same] at second
    rw [first, second]
    exact behind _ (.visible rfl (later bound laterParts))
  · exact .visible rfl (later (Nat.le_refl _) narrowed)

theorem plainSigns (narrowed : Narrowed text other) :
    Narrowed (plainSigns text) (plainSigns other) := by
  unfold Source.plainSigns
  rw [lowerSuperscripts_eq, lowerSuperscripts_eq]
  exact (narrowed.plainOperators.writeRuns false false).nameRootCalls.nameRootOperands

end Narrowed

/-! ## Brackets and length -/

theorem noBracket_of_blank {c : Char} (blank : Text.isBlank c = true) :
    closing? c = none ∧ isClosing c = false :=
  forall_blanks (fun c => closing? c = none ∧ isClosing c = false) (by decide) blank

theorem IsGap.balances {run : List Char} (gap : IsGap run) : Balances run := by
  have each := gap.each
  clear gap
  induction run with
  | nil => exact balances_nil
  | cons c run inductionHypothesis =>
      rcases noBracket_of_blank (each c List.mem_cons_self) with ⟨opens, closes⟩
      exact balances_cons opens closes
        (inductionHypothesis fun d member => each d (List.mem_cons_of_mem c member))

namespace Narrowed

variable {text other : List Char}

/-- Whether brackets are balanced does not depend on the blanks between them. -/
theorem noFault (narrowed : Narrowed text other) {waiting others : List (Char × Nat)}
    {position place : Nat} (same : others.map Prod.fst = waiting.map Prod.fst)
    (noFault : faultFrom? waiting position text = none) :
    faultFrom? others place other = none := by
  induction narrowed generalizing waiting others position place with
  | nil =>
      cases waiting with
      | nil =>
          cases List.map_eq_nil_iff.mp same
          rfl
      | cons entry waiting => simp [faultFrom?] at noFault
  | visible _ _ inductionHypothesis => exact noFault_cons same inductionHypothesis noFault
  | gap gap gapToo _ _ inductionHypothesis =>
      rw [gap.balances] at noFault
      rw [gapToo.balances]
      exact inductionHypothesis same noFault

/-- What can be prepared can be prepared with narrower gaps too. -/
theorem prepare (narrowed : Narrowed text other) {result : List Char}
    (prepared : prepare text = .ok result) :
    ∃ further, Source.prepare other = .ok further ∧ Narrowed result further := by
  have bare := narrowed.bare
  rcases prepare_eq_ok_iff.mp prepared with ⟨written, short, rfl, noFault⟩
  refine ⟨_, prepare_eq_ok_iff.mpr ⟨?_, ?_, rfl, bare.plainSigns.noFault rfl noFault⟩,
    bare.plainSigns⟩
  · rwa [Ne, ← bare.eq_nil_iff]
  · exact Nat.le_trans bare.length_le short

end Narrowed

/-! ## Words joined by spaces -/

/-- A visible character in front keeps a text from being trimmed there. -/
theorem trimStart_seen {front : List Char} (written : front ≠ [])
    (seen : forall c, c ∈ front -> Text.isBlank c = false) (text : List Char) :
    Text.trimStart (front ++ text) = front ++ text := by
  cases front with
  | nil => exact absurd rfl written
  | cons c front => exact trimStart_of_head (by rintro d ⟨⟩; exact seen c List.mem_cons_self)

/-- Behind a blank a text that ends visibly has something to show. -/
theorem trimStart_ne_nil {c : Char} {rest : List Char} (blank : Text.isBlank c = true)
    (ends : forall d, d ∈ (c :: rest).getLast? -> Text.isBlank d = false) :
    Text.trimStart rest ≠ [] := by
  intro none
  have each : (c :: rest).all Text.isBlank = true := by
    rw [List.all_cons, blank, (trimStart_eq_nil_iff rest).mp none, Bool.and_self]
  have last := ends _ (List.getLast?_eq_some_getLast (List.cons_ne_nil c rest))
  rw [List.all_eq_true.mp each _ (List.getLast_mem _)] at last
  cases last

/-- One word more in front of words that were joined. -/
theorem Narrowed.word {c : Char} {rest : List Char} {words : List (List Char)}
    (later : Narrowed (Text.trimStart rest) ([' '].intercalate words)) (follows : words ≠ [])
    (blank : Text.isBlank c = true) (word : List Char) :
    Narrowed (word ++ c :: rest) ([' '].intercalate (word :: words)) := by
  have parts : c :: rest = (c :: rest.takeWhile Text.isBlank) ++ Text.trimStart rest := by
    rw [List.cons_append, Text.trimStart, List.takeWhile_append_dropWhile]
  have gap : IsGap (c :: rest.takeWhile Text.isBlank) :=
    ⟨List.cons_ne_nil _ _, by rw [List.all_cons, blank, takeWhile_all, Bool.and_self]⟩
  cases words with
  | nil => exact absurd rfl follows
  | cons next words =>
      rw [List.intercalate_cons_cons, List.append_assoc, parts]
      exact .behind _ (.gap gap (.singleton rfl) (Nat.succ_le_succ (Nat.zero_le _)) later)

/-- Joining the words of a text by single spaces narrows its gaps, blanks at its front aside.  By
induction on the text, with the letters of the unfinished word in front. -/
theorem narrowed_wordsAfter {unfinished text : List Char}
    (seen : forall c, c ∈ unfinished -> Text.isBlank c = false)
    (ends : forall c, c ∈ text.getLast? -> Text.isBlank c = false) :
    Narrowed (Text.trimStart (unfinished.reverse ++ text))
      ([' '].intercalate (Text.wordsAfter unfinished text)) := by
  have seenWord : forall {letters : List Char},
      (forall c, c ∈ letters -> Text.isBlank c = false) ->
      forall c, c ∈ letters.reverse -> Text.isBlank c = false :=
    fun seen c member => seen c (List.mem_reverse.mp member)
  have writtenWord : forall {letters : List Char}, ¬ letters.isEmpty = true ->
      letters.reverse ≠ [] :=
    fun written none => written (List.isEmpty_iff.mpr (List.reverse_eq_nil_iff.mp none))
  induction text generalizing unfinished with
  | nil =>
      rw [Text.wordsAfter, List.append_nil]
      split
      · rename_i none
        rw [List.isEmpty_iff.mp none]
        exact .nil
      · rename_i written
        have starts := trimStart_seen (writtenWord written) (seenWord seen) []
        rw [List.append_nil] at starts
        rw [starts, List.intercalate_singleton]
        exact .refl _
  | cons c rest inductionHypothesis =>
      have restEnds := forall_getLast?_of_cons ends
      have later := @inductionHypothesis [] nofun restEnds
      rw [List.reverse_nil, List.nil_append] at later
      rw [Text.wordsAfter]
      split
      · rename_i blank
        split
        · rename_i none
          rw [List.isEmpty_iff.mp none, List.reverse_nil, List.nil_append, Text.trimStart,
            List.dropWhile_cons_of_pos blank]
          exact later
        · rename_i written
          have follows : Text.wordsAfter [] rest ≠ [] := by
            intro none
            rw [none] at later
            exact trimStart_ne_nil blank ends (later.eq_nil_iff.mpr rfl)
          rw [trimStart_seen (writtenWord written) (seenWord seen)]
          exact later.word follows blank _
      · rename_i visible
        have seenToo : forall d, d ∈ c :: unfinished -> Text.isBlank d = false := by
          intro d member
          rcases List.mem_cons.mp member with rfl | before
          · exact Bool.eq_false_iff.mpr visible
          · exact seen d before
        have further := inductionHypothesis seenToo restEnds
        rwa [List.reverse_cons, List.append_assoc] at further

/-- A text without blanks around it begins and ends with visible characters. -/
theorem ends_of_trim {text : List Char} (whole : Text.trim text = text) :
    Text.trimStart text = text ∧ forall c, c ∈ text.getLast? -> Text.isBlank c = false := by
  constructor
  · rcases trimEnd_split (Text.trimStart text) with ⟨blanks, split, _⟩
    have trimmed : Text.trimEnd (Text.trimStart text) = text := whole
    rw [trimmed] at split
    refine (List.dropWhile_suffix Text.isBlank).eq_of_length_le ?_
    rw [← Text.trimStart, split, List.length_append]
    exact Nat.le_add_right _ _
  · rw [← whole]
    exact last_trimEnd _

/-- Joining the words of such a text by single spaces narrows its gaps. -/
theorem narrowed_words {text : List Char} (whole : Text.trim text = text) :
    Narrowed text ([' '].intercalate (Text.words text)) := by
  rcases ends_of_trim whole with ⟨starts, ends⟩
  have narrowed := @narrowed_wordsAfter [] text nofun ends
  rwa [List.reverse_nil, List.nil_append, starts] at narrowed

end Source
end QuantityCalculus
