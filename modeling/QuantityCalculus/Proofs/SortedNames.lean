import Mathlib.Data.String.Basic
import Mathlib.Order.Basic
import QuantityCalculus.Text.Ordering

namespace QuantityCalculus
namespace Text

/-!
# Names in order

The comparison of names is the order of texts, so a sorted list of names is strictly
increasing, and two such lists with the same members are the same list.
-/

theorem precedes_iff (left right : List Char) : precedes left right = true <-> left < right := by
  induction left generalizing right with
  | nil => cases right <;> simp [precedes]
  | cons a left inductionHypothesis =>
      cases right with
      | nil => simp [precedes]
      | cons b right =>
          have less : a.toNat < b.toNat <-> a < b := Iff.rfl
          rw [precedes, List.cons_lt_cons_iff, Bool.or_eq_true, Bool.and_eq_true,
            inductionHypothesis, Nat.blt_eq, beq_iff_eq, less]

/-- Names are compared as texts are compared everywhere. -/
theorem nameLess_iff (left right : String) : nameLess left right = true <-> left < right :=
  (precedes_iff left.toList right.toList).trans String.lt_iff_toList_lt.symm

theorem insertName_sorted {name : String} {names : List String}
    (sorted : names.Pairwise (· < ·)) : (insertName name names).Pairwise (· < ·) := by
  induction names with
  | nil => exact List.pairwise_singleton _ _
  | cons head rest inductionHypothesis =>
      rcases List.pairwise_cons.mp sorted with ⟨first, others⟩
      rw [insertName]
      split
      · exact sorted
      · rename_i different
        split
        · rename_i less
          have before := (nameLess_iff name head).mp less
          refine List.pairwise_cons.mpr ⟨fun other member => ?_, sorted⟩
          rcases List.mem_cons.mp member with rfl | later
          · exact before
          · exact before.trans (first other later)
        · rename_i notLess
          have after : head < name := by
            refine lt_of_le_of_ne (not_lt.mp fun less => notLess ?_) (Ne.symm different)
            exact (nameLess_iff name head).mpr less
          refine List.pairwise_cons.mpr ⟨fun other member => ?_, inductionHypothesis others⟩
          rcases (mem_insertName name other rest).mp member with rfl | later
          · exact after
          · exact first other later

theorem sortedNames_sorted (names : List String) : (sortedNames names).Pairwise (· < ·) := by
  induction names with
  | nil => exact List.Pairwise.nil
  | cons head rest inductionHypothesis => exact insertName_sorted inductionHypothesis

theorem mem_insertByName {α : Type} {nameOf : α -> String} {value other : α} {values : List α} :
    other ∈ insertByName nameOf value values <-> other = value ∨ other ∈ values := by
  induction values with
  | nil => exact List.mem_cons
  | cons head rest inductionHypothesis =>
      rw [insertByName]
      split
      · exact List.mem_cons
      · rw [List.mem_cons, inductionHypothesis, List.mem_cons]
        exact or_left_comm

/-- Sorting by a name keeps all values. -/
theorem mem_sortedBy {α : Type} {nameOf : α -> String} {value : α} {values : List α} :
    value ∈ sortedBy nameOf values <-> value ∈ values := by
  have inserted : forall items : List α,
      value ∈ items.foldr (insertByName nameOf) [] <-> value ∈ items := by
    intro items
    induction items with
    | nil => exact Iff.rfl
    | cons head rest inductionHypothesis =>
        rw [List.foldr_cons, mem_insertByName, inductionHypothesis, List.mem_cons]
  exact (inserted values.reverse).trans List.mem_reverse

theorem nodup_sortedNames (names : List String) : (sortedNames names).Nodup :=
  (sortedNames_sorted names).imp ne_of_lt

/-- Sorted names are told by their members. -/
theorem sortedNames_congr {names others : List String}
    (same : forall name, name ∈ names <-> name ∈ others) :
    sortedNames names = sortedNames others := by
  refine @List.Perm.eq_of_pairwise _ (· < ·) _ _ ?_ (sortedNames_sorted names)
    (sortedNames_sorted others) ?_
  · exact fun _ _ _ _ less more => absurd less more.asymm
  · refine (List.perm_ext_iff_of_nodup (nodup_sortedNames _) (nodup_sortedNames _)).mpr ?_
    intro name
    rw [mem_sortedNames, mem_sortedNames, same]

end Text
end QuantityCalculus
