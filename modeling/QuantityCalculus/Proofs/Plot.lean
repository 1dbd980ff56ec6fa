import Mathlib.Algebra.Order.Field.Basic
import Mathlib.Tactic.Linarith
import QuantityCalculus.Plot
import QuantityCalculus.Proofs.Arithmetic.Finite

namespace QuantityCalculus

/-!
# What a plot draws

A drawing keeps every mark on the grid, so a sample that was computed to lie outside of it
would appear at the border, in a wrong place.  In exact arithmetic no sample is computed to
lie outside: the frame is taken from the samples that are drawn, and a part of a span, cut
down to a whole number of cells, falls on a cell of the line at both ends.

The samples without a value and those that are too large are not drawn, and the frame has to
leave them out too; otherwise one of them would press all others onto the same row.  A mark
can be drawn over by a later one and by no axis, so the cell of a sample shows a mark in the
end, though it may be the mark of another sample.
-/

namespace Plot

variable {R K : Type} [Scalar R] [Field K] [LinearOrder K] [IsStrictOrderedRing K]
  [ExactWhereFinite R K]

/-! ## The samples that are drawn -/

/-- A sample with a value whose magnitude is below ten to the tenth. -/
def Drawable (y : R) : Prop :=
  ∃ value : K, value? y = some value ∧ |value| < (10 ^ 10 : Nat)

omit [IsStrictOrderedRing K] in
theorem isDrawable_iff {y : R} : isDrawable y = true <-> Drawable y := by
  have bound : value? (Scalar.tenTo 10 : R) = some ((10 ^ 10 : Nat) : K) := by
    rw [Scalar.tenTo, ExactWhereFinite.ofDecimal_eq, Nat.cast_one, one_mul, Nat.cast_pow]
    exact congrArg some (zpow_natCast _ 10)
  rw [isDrawable, ExactWhereFinite.isFinite_eq]
  cases held : (value? y : Option K) with
  | none => simp [Drawable, held]
  | some value =>
      rw [ExactWhereFinite.lt_eq (ExactWhereFinite.abs_eq held) bound]
      simp [Drawable, held]

omit [Scalar R] [Field K] [IsStrictOrderedRing K] [ExactWhereFinite R K] in
/-- Among numbers that are compared by their keys, the best one found is a least one. -/
theorem best_spec {better : R -> R -> Bool} {key : R -> K} {first : R} {rest : List R}
    (compares : forall a b, a ∈ first :: rest -> b ∈ first :: rest ->
      better a b = decide (key a < key b)) :
    best better first rest ∈ first :: rest ∧
      forall y, y ∈ first :: rest -> key (best better first rest) ≤ key y := by
  induction rest generalizing first with
  | nil =>
      refine ⟨List.mem_cons_self, fun y member => ?_⟩
      rw [List.mem_singleton.mp member]
      exact le_refl _
  | cons next rest inductionHypothesis =>
      have step : best better first (next :: rest) =
          best better (if better next first then next else first) rest := rfl
      have nextMember : next ∈ first :: next :: rest := by simp
      have inFront := compares next first nextMember List.mem_cons_self
      rw [step]
      by_cases smaller : key next < key first
      · rw [inFront, if_pos (decide_eq_true smaller)]
        rcases inductionHypothesis fun a b aMember bMember =>
          compares a b (List.mem_cons_of_mem _ aMember) (List.mem_cons_of_mem _ bMember)
          with ⟨found, least⟩
        refine ⟨List.mem_cons_of_mem _ found, fun y member => ?_⟩
        rcases List.mem_cons.mp member with rfl | later
        · exact (least next List.mem_cons_self).trans smaller.le
        · exact least y later
      · rw [inFront, if_neg (by simpa using smaller)]
        have kept : forall {y}, y ∈ first :: rest -> y ∈ first :: next :: rest := by
          intro y member
          rcases List.mem_cons.mp member with rfl | later
          · exact List.mem_cons_self
          · exact List.mem_cons_of_mem _ (List.mem_cons_of_mem _ later)
        rcases inductionHypothesis fun a b aMember bMember =>
          compares a b (kept aMember) (kept bMember) with ⟨found, least⟩
        refine ⟨kept found, fun y member => ?_⟩
        rcases List.mem_cons.mp member with rfl | later
        · exact least y List.mem_cons_self
        · rcases List.mem_cons.mp later with rfl | later
          · exact (least first List.mem_cons_self).trans (le_of_not_gt smaller)
          · exact least y (List.mem_cons_of_mem _ later)

/-! ## Places on a line -/

section

variable {low high part whole : R} {l h p w : K}

/-- The length of a span, one if it is degenerate. -/
def extent (l h : K) : K :=
  if h = l then 1 else h - l

omit [IsStrictOrderedRing K] in
theorem value?_span (lowValue : value? low = some l) (highValue : value? high = some h) :
    value? (span low high) = some (extent l h) := by
  rw [span, extent, ExactWhereFinite.eq_eq highValue lowValue]
  by_cases same : h = l
  · simp [same, ExactWhereFinite.ofInt_eq]
  · simp [same, ExactWhereFinite.sub_eq highValue lowValue]

theorem extent_pos (ordered : l ≤ h) : 0 < extent l h := by
  unfold extent
  split
  · exact one_pos
  · rename_i different
    exact sub_pos.mpr (lt_of_le_of_ne ordered (Ne.symm different))

theorem sub_le_extent (l h : K) : h - l ≤ extent l h := by
  unfold extent
  split
  · rename_i same
    rw [same, sub_self]
    exact zero_le_one
  · exact le_refl _

/-- Before it is cut down, the place of a part is in proportion. -/
theorem place_bounds (partValue : value? part = some p) (wholeValue : value? whole = some w)
    (nonnegative : 0 ≤ p) (positive : 0 < w) (count : Nat) :
    (place part whole count : K) ≤ p / w * (count - 1 : Nat) ∧
      p / w * (count - 1 : Nat) < place part whole count + 1 := by
  refine ExactWhereFinite.truncate_bounds ?_
    (mul_nonneg (div_nonneg nonnegative positive.le) (Nat.cast_nonneg _))
  rw [ExactWhereFinite.mul_eq
    (ExactWhereFinite.div_eq partValue wholeValue positive.ne') (ExactWhereFinite.ofInt_eq _),
    Int.cast_natCast]

theorem place_nonneg (partValue : value? part = some p) (wholeValue : value? whole = some w)
    (nonnegative : 0 ≤ p) (positive : 0 < w) (count : Nat) : 0 ≤ place part whole count := by
  have above := (place_bounds partValue wholeValue nonnegative positive count).2
  have real : (0 : K) ≤ p / w * (count - 1 : Nat) :=
    mul_nonneg (div_nonneg nonnegative positive.le) (Nat.cast_nonneg _)
  have cast : ((0 : Int) : K) < ((place part whole count + 1 : Int) : K) := by
    push_cast
    exact real.trans_lt above
  exact Int.lt_add_one_iff.mp (Int.cast_lt.mp cast)

theorem place_le (partValue : value? part = some p) (wholeValue : value? whole = some w)
    (nonnegative : 0 ≤ p) (positive : 0 < w) (within : p ≤ w) (count : Nat) :
    place part whole count ≤ (count - 1 : Nat) := by
  have below := (place_bounds partValue wholeValue nonnegative positive count).1
  have real : p / w * (count - 1 : Nat) ≤ ((count - 1 : Nat) : K) :=
    mul_le_of_le_one_left (Nat.cast_nonneg _) ((div_le_one positive).mpr within)
  have cast : (place part whole count : K) ≤ (((count - 1 : Nat) : Int) : K) := by
    rw [Int.cast_natCast]
    exact below.trans real
  exact Int.cast_le.mp cast

/-- A larger part reaches as far or further. -/
theorem place_mono {other : R} {q : K} (partValue : value? part = some p)
    (otherValue : value? other = some q) (wholeValue : value? whole = some w)
    (nonnegative : 0 ≤ p) (positive : 0 < w) (ordered : p ≤ q) (count : Nat) :
    place part whole count ≤ place other whole count := by
  have below := (place_bounds partValue wholeValue nonnegative positive count).1
  have above := (place_bounds otherValue wholeValue (nonnegative.trans ordered) positive count).2
  have real : p / w * ((count - 1 : Nat) : K) ≤ q / w * (count - 1 : Nat) :=
    mul_le_mul_of_nonneg_right (div_le_div_of_nonneg_right ordered positive.le)
      (Nat.cast_nonneg _)
  have cast : (place part whole count : K) < ((place other whole count + 1 : Int) : K) := by
    push_cast
    exact (below.trans real).trans_lt above
  exact Int.lt_add_one_iff.mp (Int.cast_lt.mp cast)

theorem place_of_zero (partValue : value? part = some (0 : K))
    (wholeValue : value? whole = some w) (positive : 0 < w) (count : Nat) :
    place part whole count = 0 := by
  have below := (place_bounds partValue wholeValue le_rfl positive count).1
  rw [zero_div, zero_mul] at below
  exact le_antisymm (Int.cast_nonpos.mp below)
    (place_nonneg partValue wholeValue le_rfl positive count)

/-- The whole span reaches to the last cell. -/
theorem place_of_whole (partValue : value? part = some w) (wholeValue : value? whole = some w)
    (positive : 0 < w) (count : Nat) : place part whole count = (count - 1 : Nat) := by
  have above := (place_bounds partValue wholeValue positive.le positive count).2
  rw [div_self positive.ne', one_mul] at above
  have cast : (((count - 1 : Nat) : Int) : K) < ((place part whole count + 1 : Int) : K) := by
    push_cast
    exact above
  exact le_antisymm (place_le partValue wholeValue positive.le positive le_rfl count)
    (Int.lt_add_one_iff.mp (Int.cast_lt.mp cast))

theorem clamp_of_inside {count place : Nat} (inside : place < count) :
    clamp count (place : Int) = place := by
  unfold clamp
  omega

end

/-! ## The frame -/

namespace Frame

/-- A frame around points and values, with the numbers that its bounds stand for. -/
structure Encloses (frame : Frame R) (points ys : List R) (left right bottom top : K) : Prop where
  left_eq : value? frame.left = some left
  right_eq : value? frame.right = some right
  bottom_eq : value? frame.bottom = some bottom
  top_eq : value? frame.top = some top
  across : forall x, x ∈ points -> ∃ value, value? x = some value ∧ left ≤ value ∧ value ≤ right
  down : forall y, y ∈ ys -> ∃ value, value? y = some value ∧ bottom ≤ value ∧ value ≤ top
  bottom_mem : frame.bottom ∈ ys
  top_mem : frame.top ∈ ys

end Frame

/-- The drawable samples of all series. -/
def drawn (series : List (List R)) : List R :=
  series.flatten.filter isDrawable

omit [IsStrictOrderedRing K] in
theorem mem_drawn {series : List (List R)} {y : R} :
    y ∈ drawn series <-> y ∈ series.flatten ∧ Drawable y := by
  rw [drawn, List.mem_filter, isDrawable_iff]

omit [Field K] [IsStrictOrderedRing K] in
/-- Numbers in ascending order lie between the first and the last of them. -/
theorem between_ends {values : List K} {low high : K} (ascending : values.Pairwise (· ≤ ·))
    (first : values.head? = some low) (last : values.getLast? = some high) :
    forall value, value ∈ values -> low ≤ value ∧ value ≤ high := by
  intro value member
  constructor
  · rcases List.head?_eq_some_iff.mp first with ⟨rest, rfl⟩
    rcases List.mem_cons.mp member with rfl | later
    · exact le_refl _
    · exact (List.pairwise_cons.mp ascending).1 value later
  · rcases List.getLast?_eq_some_iff.mp last with ⟨front, rfl⟩
    rcases List.mem_append.mp member with earlier | here
    · exact (List.pairwise_append.mp ascending).2.2 value earlier high (List.mem_singleton_self _)
    · exact (List.mem_singleton.mp here).le

omit [IsStrictOrderedRing K] in
/-- The least and the greatest of some samples are such samples. -/
theorem extremes {first : R} {rest : List R}
    (valued : forall y, y ∈ first :: rest -> ∃ value : K, value? y = some value) :
    ∃ bottom top : K, value? (best Scalar.lt first rest) = some bottom ∧
      value? (best (fun a b => Scalar.lt b a) first rest) = some top ∧
      best Scalar.lt first rest ∈ first :: rest ∧
      best (fun a b => Scalar.lt b a) first rest ∈ first :: rest ∧
      forall y, y ∈ first :: rest ->
        ∃ value, value? y = some value ∧ bottom ≤ value ∧ value ≤ top := by
  let number : R -> K := fun y => (value? y).getD 0
  have held : forall y, y ∈ first :: rest -> value? y = some (number y) := by
    intro y member
    rcases valued y member with ⟨value, held⟩
    rw [show number y = value from congrArg (Option.getD · 0) held, held]
  have less : forall a b, a ∈ first :: rest -> b ∈ first :: rest ->
      Scalar.lt a b = decide (number a < number b) := fun a b aMember bMember =>
    ExactWhereFinite.lt_eq (held a aMember) (held b bMember)
  rcases best_spec less with ⟨bottomMember, least⟩
  have greater : forall a b, a ∈ first :: rest -> b ∈ first :: rest ->
      Scalar.lt b a = decide (OrderDual.toDual (number a) < OrderDual.toDual (number b)) :=
    fun a b aMember bMember => less b a bMember aMember
  rcases best_spec greater with ⟨topMember, greatest⟩
  exact ⟨_, _, held _ bottomMember, held _ topMember, bottomMember, topMember, fun y member =>
    ⟨_, held y member, least y member, OrderDual.toDual_le_toDual.mp (greatest y member)⟩⟩

omit [IsStrictOrderedRing K] in
/-- The frame of points in ascending order encloses the points and the drawable samples. -/
theorem frame?_encloses {xs : List R} {series : List (List R)} {values : List K}
    (known : xs.map value? = values.map some) (ascending : values.Pairwise (· ≤ ·))
    (notEmpty : xs ≠ []) (drawable : drawn series ≠ []) :
    ∃ frame left right bottom top, frame? xs series = some frame ∧
      frame.Encloses xs (drawn series) left right (bottom : K) top := by
  rcases List.exists_cons_of_ne_nil drawable with ⟨first, rest, samples⟩
  have valued : forall y, y ∈ first :: rest -> ∃ value : K, value? y = some value := by
    intro y member
    rcases (mem_drawn.mp (samples ▸ member)).2 with ⟨value, held, _⟩
    exact ⟨value, held⟩
  rcases extremes valued with ⟨bottom, top, bottomValue, topValue, bottomMember, topMember, rows⟩
  have head := List.head?_eq_some_head notEmpty
  have last := List.getLast?_eq_some_getLast notEmpty
  have headValue := congrArg List.head? known
  have lastValue := congrArg List.getLast? known
  rw [List.head?_map, List.head?_map, head] at headValue
  rw [List.getLast?_map, List.getLast?_map, last] at lastValue
  rcases Option.map_eq_some_iff.mp headValue.symm with ⟨left, leftHead, leftValue⟩
  rcases Option.map_eq_some_iff.mp lastValue.symm with ⟨right, rightLast, rightValue⟩
  refine ⟨⟨xs.head notEmpty, xs.getLast notEmpty, best Scalar.lt first rest,
    best (fun a b => Scalar.lt b a) first rest⟩, left, right, bottom, top, ?_, ?_⟩
  · rw [frame?, show series.flatten.filter isDrawable = first :: rest from samples, head, last]
  · refine ⟨leftValue.symm, rightValue.symm, bottomValue, topValue, ?_, samples ▸ rows,
      samples ▸ bottomMember, samples ▸ topMember⟩
    intro x member
    have listed : value? x ∈ values.map some := known ▸ List.mem_map_of_mem member
    rcases List.mem_map.mp listed with ⟨value, inside, held⟩
    exact ⟨value, held.symm, between_ends ascending leftHead rightLast value inside⟩

omit [IsStrictOrderedRing K] in
/-- Without a drawable sample there is no frame. -/
theorem frame?_eq_none_iff {xs : List R} {series : List (List R)} (notEmpty : xs ≠ []) :
    frame? xs series = none <-> drawn series = [] := by
  have head := List.head?_eq_some_head notEmpty
  have last := List.getLast?_eq_some_getLast notEmpty
  rw [frame?, head, last, ← drawn]
  cases drawn series <;> simp

/-! ## The marks -/

theorem signOf_mem (number : Nat) : Frame.signOf number ∈ seriesMarks := by
  have inside : number % seriesMarks.length < seriesMarks.length := Nat.mod_lt _ (by decide)
  rw [Frame.signOf, List.getD_eq_getElem?_getD, List.getElem?_eq_getElem inside]
  exact List.getElem_mem inside

section

omit [Field K] [LinearOrder K] [IsStrictOrderedRing K] [ExactWhereFinite R K]

variable {frame : Frame R} {xs ys : List R} {series : List (List R)}

/-- Every drawable sample leaves a mark. -/
theorem mark_mem_marksFrom {number : Nat} {x y : R} (listed : ys ∈ series)
    (sample : (x, y) ∈ xs.zip ys) (drawable : isDrawable y = true) :
    ∃ sign, frame.mark sign x y ∈ frame.marksFrom xs number series := by
  induction series generalizing number with
  | nil => cases listed
  | cons first rest inductionHypothesis =>
      rcases List.mem_cons.mp listed with rfl | later
      · exact ⟨Frame.signOf number, List.mem_append_left _ (List.mem_map.mpr
          ⟨(x, y), List.mem_filter.mpr ⟨sample, drawable⟩, rfl⟩)⟩
      · rcases @inductionHypothesis (number + 1) later with ⟨sign, marked⟩
        exact ⟨sign, List.mem_append_right _ marked⟩

/-- No mark has another sign than those of the series. -/
theorem sign_of_mem_marksFrom {number : Nat} {mark : Mark}
    (member : mark ∈ frame.marksFrom xs number series) : mark.sign ∈ seriesMarks := by
  induction series generalizing number with
  | nil => cases member
  | cons first rest inductionHypothesis =>
      rcases List.mem_append.mp member with here | later
      · rcases List.mem_map.mp here with ⟨_, _, rfl⟩
        exact signOf_mem number
      · exact inductionHypothesis later

/-- Whatever is drawn over it, the cell of a mark shows a mark in the end. -/
theorem cell_of_mark {marks : List Mark} {mark : Mark} (member : mark ∈ marks)
    (signs : forall other, other ∈ marks -> other.sign ∈ seriesMarks) :
    frame.cell marks mark.row mark.column ∈ seriesMarks := by
  unfold Frame.cell
  cases found : marks.reverse.find? fun other =>
      other.row == mark.row && other.column == mark.column with
  | none =>
      have missed := List.find?_eq_none.mp found mark (List.mem_reverse.mpr member)
      simp at missed
  | some last => exact signs last (List.mem_reverse.mp (List.mem_of_find?_eq_some found))

/-- The character in a row and a column of some lines. -/
def charAt? (lines : List String) (row column : Nat) : Option Char :=
  lines[row]?.bind fun line => line.toList[column]?

theorem charAt?_lines {marks : List Mark} {row column : Nat} (rowInside : row < rows)
    (columnInside : column < columns) :
    charAt? (frame.lines marks) row column = some (frame.cell marks row column) := by
  simp [charAt?, Frame.lines, rowInside, columnInside]

theorem size_lines (marks : List Mark) :
    (frame.lines marks).length = rows ∧
      forall line, line ∈ frame.lines marks -> line.length = columns := by
  refine ⟨by simp [Frame.lines], fun line member => ?_⟩
  rcases List.mem_map.mp member with ⟨row, _, rfl⟩
  simp

end

/-! ## Every sample on the grid -/

/--
A drawing of twenty lines of sixty characters that shows the drawable samples of some series
in a frame: each in the cell that it is computed to lie in, without being kept on the grid,
and greater ones not below smaller ones, between a greatest in the first line and, unless all
are equal, a least in the last.
-/
structure ShowsSamples (frame : Frame R) (xs : List R) (series : List (List R))
    (lines : List String) : Prop where
  size : lines.length = 20 ∧ forall line, line ∈ lines -> line.length = 60
  marked : forall ys, ys ∈ series -> forall (number : Nat) y, ys[number]? = some y -> Drawable y ->
    ∃ x, xs[number]? = some x ∧ ∃ row column : Nat, row < 20 ∧ column < 60 ∧
      frame.rowPlace y = row ∧ frame.columnPlace x = column ∧
      ∃ sign, charAt? lines row column = some sign ∧ sign ∈ seriesMarks
  ordered : forall y y', y ∈ drawn series -> y' ∈ drawn series ->
    forall v v' : K, value? y = some v -> value? y' = some v' -> v < v' ->
      frame.rowPlace y' ≤ frame.rowPlace y
  greatest : forall y, y ∈ drawn series -> forall v : K, value? y = some v ->
    (forall y', y' ∈ drawn series -> forall v' : K, value? y' = some v' -> v' ≤ v) ->
      frame.rowPlace y = 0
  least : (∃ y y', y ∈ drawn series ∧ y' ∈ drawn series ∧ (value? y : Option K) ≠ value? y') ->
    forall y, y ∈ drawn series -> forall v : K, value? y = some v ->
      (forall y', y' ∈ drawn series -> forall v' : K, value? y' = some v' -> v ≤ v') ->
        frame.rowPlace y = 19

section

variable {frame : Frame R} {points ys : List R} {left right bottom top : K}

/-- The place of a sample in its row direction comes from its distance to the greatest. -/
theorem Frame.Encloses.row_parts (encloses : frame.Encloses points ys left right bottom top)
    {y : R} (member : y ∈ ys) {v : K} (held : value? y = some v) :
    value? (Scalar.sub frame.top y) = some (top - v) ∧
      value? (span frame.bottom frame.top) = some (extent bottom top) ∧
      0 ≤ top - v ∧ top - v ≤ extent bottom top ∧ 0 < extent bottom top := by
  rcases encloses.down y member with ⟨value, same, above, below⟩
  cases held.symm.trans same
  exact ⟨ExactWhereFinite.sub_eq encloses.top_eq held,
    value?_span encloses.bottom_eq encloses.top_eq, sub_nonneg.mpr below,
    (sub_le_sub_left above top).trans (sub_le_extent bottom top), extent_pos (above.trans below)⟩

theorem Frame.Encloses.column_parts (encloses : frame.Encloses points ys left right bottom top)
    {x : R} (member : x ∈ points) :
    ∃ p, value? (Scalar.sub x frame.left) = some p ∧
      value? (span frame.left frame.right) = some (extent left right) ∧
      0 ≤ p ∧ p ≤ extent left right ∧ 0 < extent left right := by
  rcases encloses.across x member with ⟨value, held, above, below⟩
  exact ⟨value - left, ExactWhereFinite.sub_eq held encloses.left_eq,
    value?_span encloses.left_eq encloses.right_eq, sub_nonneg.mpr above,
    (sub_le_sub_right below left).trans (sub_le_extent left right),
    extent_pos (above.trans below)⟩

/-- The row of a sample is a row of the grid. -/
theorem Frame.Encloses.exists_row (encloses : frame.Encloses points ys left right bottom top)
    {y : R} (member : y ∈ ys) : ∃ row : Nat, row < rows ∧ frame.rowPlace y = row := by
  rcases encloses.down y member with ⟨v, held, _, _⟩
  rcases encloses.row_parts member held with ⟨part, whole, nonnegative, within, positive⟩
  rcases Int.eq_ofNat_of_zero_le (place_nonneg part whole nonnegative positive rows) with
    ⟨row, same⟩
  have atMost := place_le part whole nonnegative positive within rows
  rw [same] at atMost
  exact ⟨row, Nat.lt_of_le_of_lt (Int.ofNat_le.mp atMost) (by decide), same⟩

theorem Frame.Encloses.exists_column (encloses : frame.Encloses points ys left right bottom top)
    {x : R} (member : x ∈ points) :
    ∃ column : Nat, column < columns ∧ frame.columnPlace x = column := by
  rcases encloses.column_parts member with ⟨p, part, whole, nonnegative, within, positive⟩
  rcases Int.eq_ofNat_of_zero_le (place_nonneg part whole nonnegative positive columns) with
    ⟨column, same⟩
  have atMost := place_le part whole nonnegative positive within columns
  rw [same] at atMost
  exact ⟨column, Nat.lt_of_le_of_lt (Int.ofNat_le.mp atMost) (by decide), same⟩

/-- A greater sample has its row not below that of a smaller one. -/
theorem Frame.Encloses.row_le_row (encloses : frame.Encloses points ys left right bottom top)
    {y y' : R} (member : y ∈ ys) (member' : y' ∈ ys) {v v' : K} (held : value? y = some v)
    (held' : value? y' = some v') (less : v < v') : frame.rowPlace y' ≤ frame.rowPlace y := by
  rcases encloses.row_parts member held with ⟨part, _⟩
  rcases encloses.row_parts member' held' with ⟨part', whole, nonnegative', _, positive⟩
  exact place_mono part' part whole nonnegative' positive (sub_le_sub_left less.le top) rows

theorem Frame.Encloses.row_of_greatest (encloses : frame.Encloses points ys left right bottom top)
    {y : R} (member : y ∈ ys) {v : K} (held : value? y = some v)
    (greatest : forall y', y' ∈ ys -> forall v' : K, value? y' = some v' -> v' ≤ v) :
    frame.rowPlace y = 0 := by
  rcases encloses.row_parts member held with ⟨part, whole, nonnegative, _, positive⟩
  have isTop : v = top :=
    le_antisymm (sub_nonneg.mp nonnegative) (greatest _ encloses.top_mem top encloses.top_eq)
  rw [isTop, sub_self] at part
  exact place_of_zero part whole positive rows

omit [IsStrictOrderedRing K] in
/-- Two samples with different values keep the ends of the rows apart. -/
theorem Frame.Encloses.top_ne_bottom (encloses : frame.Encloses points ys left right bottom top)
    {one other : R} (oneMember : one ∈ ys) (otherMember : other ∈ ys)
    (different : (value? one : Option K) ≠ value? other) : top ≠ bottom := by
  rcases encloses.down one oneMember with ⟨u, oneHeld, oneAbove, oneBelow⟩
  rcases encloses.down other otherMember with ⟨u', otherHeld, otherAbove, otherBelow⟩
  rintro rfl
  rw [oneHeld, otherHeld, le_antisymm oneBelow oneAbove,
    le_antisymm otherBelow otherAbove] at different
  exact different rfl

theorem Frame.Encloses.row_of_least (encloses : frame.Encloses points ys left right bottom top)
    (apart : top ≠ bottom) {y : R} (member : y ∈ ys) {v : K} (held : value? y = some v)
    (least : forall y', y' ∈ ys -> forall v' : K, value? y' = some v' -> v ≤ v') :
    frame.rowPlace y = 19 := by
  rcases encloses.row_parts member held with ⟨part, whole, _, _, positive⟩
  rcases encloses.down y member with ⟨_, same, above, _⟩
  cases held.symm.trans same
  have isBottom : v = bottom :=
    le_antisymm (least _ encloses.bottom_mem bottom encloses.bottom_eq) above
  rw [isBottom, ← show extent bottom top = top - bottom from if_neg apart] at part
  exact place_of_whole part whole positive rows

/-- The cell that a drawable sample is computed to lie in is on the grid, and shows a mark. -/
theorem Frame.Encloses.exists_mark {xs : List R} {series : List (List R)}
    (encloses : frame.Encloses xs (drawn series) left right bottom top)
    (listed : ys ∈ series) {x y : R} (sample : (x, y) ∈ xs.zip ys) (drawable : Drawable y) :
    ∃ row column : Nat, row < 20 ∧ column < 60 ∧
      frame.rowPlace y = row ∧ frame.columnPlace x = column ∧
      ∃ sign, charAt? (frame.lines (frame.marksFrom xs 0 series)) row column = some sign ∧
        sign ∈ Plot.seriesMarks := by
  have parts := List.of_mem_zip sample
  have inDrawn : y ∈ drawn series :=
    mem_drawn.mpr ⟨List.mem_flatten.mpr ⟨ys, listed, parts.2⟩, drawable⟩
  rcases encloses.exists_row inDrawn with ⟨row, rowInside, rowPlace⟩
  rcases encloses.exists_column parts.1 with ⟨column, columnInside, columnPlace⟩
  have marked : ∃ sign, frame.mark sign x y ∈ frame.marksFrom xs 0 series :=
    mark_mem_marksFrom listed sample (isDrawable_iff.mpr drawable)
  rcases marked with ⟨sign, member⟩
  have shown : frame.cell (frame.marksFrom xs 0 series) (frame.mark sign x y).row
      (frame.mark sign x y).column ∈ Plot.seriesMarks :=
    cell_of_mark member fun _ => sign_of_mem_marksFrom
  rw [Frame.mark, rowPlace, columnPlace, clamp_of_inside rowInside,
    clamp_of_inside columnInside] at shown
  exact ⟨row, column, rowInside, columnInside, rowPlace, columnPlace, _,
    charAt?_lines rowInside columnInside, shown⟩

/-- A drawing in a frame around the points and the drawable samples shows the samples. -/
theorem Frame.Encloses.showsSamples {xs : List R} {series : List (List R)}
    (encloses : frame.Encloses xs (drawn series) left right bottom top)
    (lengths : forall ys, ys ∈ series -> ys.length = xs.length) :
    ShowsSamples frame xs series (frame.lines (frame.marksFrom xs 0 series)) where
  size := size_lines _
  marked := by
    intro ys listed number y here drawable
    have inside : number < xs.length := by
      rw [← lengths ys listed]
      exact (List.getElem?_eq_some_iff.mp here).1
    have across := List.getElem?_eq_getElem inside
    have sample : (xs[number], y) ∈ xs.zip ys :=
      List.mem_of_getElem? (List.getElem?_zip_eq_some.mpr ⟨across, here⟩)
    exact ⟨xs[number], across, encloses.exists_mark listed sample drawable⟩
  ordered _ _ member member' _ _ held held' less :=
    encloses.row_le_row member member' held held' less
  greatest _ member _ held greatest := encloses.row_of_greatest member held greatest
  least := by
    rintro ⟨one, other, oneMember, otherMember, different⟩ y member v held least
    have apart := encloses.top_ne_bottom oneMember otherMember different
    exact encloses.row_of_least apart member held least

end

/--
In exact arithmetic, the drawing of some series over ascending points fails exactly if no
sample can be drawn, and otherwise shows every sample that can.
-/
theorem draw?_shows {xs : List R} {series : List (List R)} {points : List K}
    (known : xs.map value? = points.map some) (ascending : points.Pairwise (· ≤ ·))
    (notEmpty : xs ≠ []) (lengths : forall ys, ys ∈ series -> ys.length = xs.length) :
    (draw? xs series = none <->
      forall ys, ys ∈ series -> forall y, y ∈ ys -> ¬ Drawable y) ∧
    forall lines, draw? xs series = some lines ->
      ∃ frame, frame? xs series = some frame ∧ ShowsSamples frame xs series lines := by
  constructor
  · rw [draw?, Option.map_eq_none_iff, frame?_eq_none_iff notEmpty, List.eq_nil_iff_forall_not_mem]
    constructor
    · intro nothing ys listed y member drawable
      exact nothing y (mem_drawn.mpr ⟨List.mem_flatten.mpr ⟨ys, listed, member⟩, drawable⟩)
    · intro none y member
      rcases mem_drawn.mp member with ⟨inside, drawable⟩
      rcases List.mem_flatten.mp inside with ⟨ys, listed, member⟩
      exact none ys listed y member drawable
  · intro lines drawing
    rcases Option.map_eq_some_iff.mp drawing with ⟨frame, framed, rfl⟩
    have drawable : drawn series ≠ [] := fun nothing => by
      rw [(frame?_eq_none_iff notEmpty).mpr nothing] at framed
      cases framed
    rcases frame?_encloses known ascending notEmpty drawable with
      ⟨_, _, _, _, _, same, encloses⟩
    cases framed.symm.trans same
    exact ⟨frame, framed, encloses.showsSamples lengths⟩

/-- Two series over three points, one with a sample missing and one with a sample too large. -/
def withGaps : List (List (Option ℚ)) :=
  [[none, some 1, some 3], [some (10 ^ 11), some (-2), some 0]]

/-- Their other samples are drawn, in a frame that neither of the two widens. -/
theorem withGaps_shown :
    ∃ lines frame, draw? [some (-1), some 0, some 2] withGaps = some lines ∧
      frame? [some (-1), some 0, some 2] withGaps = some frame ∧
      frame.bottom = some (-2) ∧ frame.top = some 3 ∧
      ShowsSamples frame [some (-1), some 0, some 2] withGaps lines := by
  have known : ([some (-1), some 0, some 2] : List (Option ℚ)).map value? =
      ([-1, 0, 2] : List ℚ).map some := rfl
  have lengths : forall ys, ys ∈ withGaps ->
      ys.length = ([some (-1), some 0, some 2] : List (Option ℚ)).length := by simp [withGaps]
  have shows := draw?_shows known (by norm_num) (by simp) lengths
  have drawn : draw? [some (-1), some 0, some 2] withGaps ≠ none := fun nothing =>
    shows.1.mp nothing [none, some 1, some 3] (by simp [withGaps]) (some 1) (by simp)
      ⟨1, rfl, by norm_num⟩
  rcases Option.ne_none_iff_exists'.mp drawn with ⟨lines, drawing⟩
  rcases shows.2 lines drawing with ⟨frame, framed, shown⟩
  have bounds : (frame? [some (-1), some 0, some 2] withGaps).map
      (fun frame => (frame.bottom, frame.top)) = some (some (-2), some 3) := by decide +kernel
  rw [framed] at bounds
  rcases Prod.mk.inj (Option.some.inj bounds) with ⟨bottom, top⟩
  exact ⟨lines, frame, drawing, framed, bottom, top, shown⟩

end Plot

end QuantityCalculus
