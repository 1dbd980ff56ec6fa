import Mathlib.Data.List.Forall2
import Mathlib.Data.List.Induction
import QuantityCalculus.Table

namespace QuantityCalculus
namespace Table

/-!
# What tables hold

A name that is set is one of the names, and a table whose names are distinct stays one.
An updated table holds what either table holds.  Two tables with the same names, in the
same order, stay alike under the operations, whatever relates their values.
-/

variable {α β : Type} {table newer : Table α} {key : String}

theorem set_of_not_mem (new : key ∉ table.keys) (value : α) :
    table.set key value = table ++ [(key, value)] := by
  induction table with
  | nil => rfl
  | cons entry rest inductionHypothesis =>
      rcases not_or.mp (mt List.mem_cons.mpr new) with ⟨different, later⟩
      rw [set, if_neg (Ne.symm different), inductionHypothesis later, List.cons_append]

theorem get?_of_mem (distinct : table.keys.Nodup) {entry : String × α}
    (member : entry ∈ table) : table.get? entry.1 = some entry.2 := by
  induction table with
  | nil => cases member
  | cons first rest inductionHypothesis =>
      rcases List.nodup_cons.mp distinct with ⟨new, others⟩
      rcases List.mem_cons.mp member with rfl | later
      · exact if_pos rfl
      · have different : first.1 ≠ entry.1 := fun same =>
          new (same ▸ List.mem_map.mpr ⟨entry, later, rfl⟩)
        exact (if_neg different).trans (inductionHypothesis others later)

/-- A table with distinct names may be put in another order. -/
theorem get?_perm (distinct : table.keys.Nodup) (reordered : table.Perm newer) (key : String) :
    table.get? key = newer.get? key := by
  have distinctThere : newer.keys.Nodup := (reordered.map Prod.fst).nodup_iff.mp distinct
  cases found : newer.get? key with
  | none =>
      rw [get?_eq_none_iff] at found ⊢
      exact fun member => found ((reordered.map Prod.fst).mem_iff.mp member)
  | some value => exact get?_of_mem distinct (reordered.mem_iff.mpr (mem_of_get? found))

theorem get?_map_mk (names : List String) (value : String -> α) (key : String) :
    Table.get? key (names.map fun name => (name, value name)) =
      if key ∈ names then some (value key) else none := by
  induction names with
  | nil => rfl
  | cons first rest inductionHypothesis =>
      rw [List.map_cons, get?, inductionHypothesis]
      by_cases same : first = key
      · subst same
        rw [if_pos rfl, if_pos List.mem_cons_self]
      · rw [if_neg same]
        simp [Ne.symm same]

theorem mem_keys_set {other : String} {value : α} :
    other ∈ (table.set key value).keys <-> other = key ∨ other ∈ table.keys := by
  rw [← not_iff_not, ← get?_eq_none_iff, get?_set, not_or, ← get?_eq_none_iff]
  by_cases same : key = other
  · rw [if_pos same]
    exact ⟨nofun, fun both => absurd same.symm both.1⟩
  · rw [if_neg same]
    exact ⟨fun none => ⟨Ne.symm same, none⟩, And.right⟩

theorem nodup_keys_set (distinct : table.keys.Nodup) (key : String) (value : α) :
    (table.set key value).keys.Nodup := by
  induction table with
  | nil => exact List.nodup_cons.mpr ⟨List.not_mem_nil, List.nodup_nil⟩
  | cons entry rest inductionHypothesis =>
      rcases List.nodup_cons.mp distinct with ⟨new, others⟩
      rw [set]
      split
      · exact distinct
      · rename_i different
        refine List.nodup_cons.mpr ⟨fun member => ?_, inductionHypothesis others⟩
        exact (mem_keys_set.mp member).elim different new

/-- An empty table that is updated with distinct names holds just these. -/
theorem update_nil_of_nodup (distinct : newer.keys.Nodup) : update [] newer = newer := by
  suffices forall before : Table α, (before ++ newer).keys.Nodup ->
      before.update newer = before ++ newer from this [] distinct
  clear distinct
  induction newer with
  | nil => exact fun before _ => (List.append_nil before).symm
  | cons entry rest inductionHypothesis =>
      intro before distinct
      have joined : before ++ entry :: rest = (before ++ [entry]) ++ rest := by simp
      have new : entry.1 ∉ before.keys := by
        intro member
        rw [keys, List.map_append, List.map_cons] at distinct
        exact (List.nodup_append.mp distinct).2.2 _ member _ List.mem_cons_self rfl
      rw [joined] at distinct ⊢
      have further := inductionHypothesis (before ++ [entry]) distinct
      rw [← further, update, List.foldl_cons, set_of_not_mem new]
      rfl

/-- A name of the newer table gets a value from there; any other name keeps its own. -/
theorem get?_update_cases (table newer : Table α) (key : String) :
    (key ∉ newer.keys ∧ (table.update newer).get? key = table.get? key) ∨
      ∃ value, (key, value) ∈ newer ∧ (table.update newer).get? key = some value := by
  induction newer generalizing table with
  | nil => exact Or.inl ⟨List.not_mem_nil, rfl⟩
  | cons entry rest inductionHypothesis =>
      rcases entry with ⟨name, first⟩
      rcases inductionHypothesis (table.set name first) with ⟨absent, kept⟩ | ⟨value, member, found⟩
      · rw [get?_set] at kept
        by_cases same : name = key
        · subst same
          rw [if_pos rfl] at kept
          exact Or.inr ⟨first, List.mem_cons_self, kept⟩
        · rw [if_neg same] at kept
          refine Or.inl ⟨fun member => ?_, kept⟩
          exact (List.mem_cons.mp member).elim (fun here => same here.symm) absent
      · exact Or.inr ⟨value, List.mem_cons_of_mem _ member, found⟩

/-- A name has the value that the newer table gives it last, or else its own. -/
theorem get?_update_last (table newer : Table α) (key : String) :
    (table.update newer).get? key = (Table.get? key newer.reverse).or (table.get? key) := by
  induction newer using List.reverseRecOn with
  | nil => rfl
  | append_singleton earlier entry inductionHypothesis =>
      have last : table.update (earlier ++ [entry]) =
          (table.update earlier).set entry.1 entry.2 := by
        rw [update, List.foldl_append]
        rfl
      rw [last, get?_set, inductionHypothesis, List.reverse_concat, get?]
      split <;> rfl

/-- Names of the newer table have their values from there. -/
theorem get?_update (table : Table α) (distinct : newer.keys.Nodup) (key : String) :
    (table.update newer).get? key = (newer.get? key).or (table.get? key) := by
  rw [get?_update_last, get?_perm distinct newer.reverse_perm.symm]

theorem nodup_keys_update (distinct : table.keys.Nodup) (newer : Table α) :
    (table.update newer).keys.Nodup :=
  List.foldlRecOn (motive := fun table : Table α => table.keys.Nodup) newer _ distinct
    fun _ earlier entry _ => nodup_keys_set earlier entry.1 entry.2

/-- A name that is not there can be taken away without a trace. -/
theorem remove_of_get?_eq_none (absent : table.get? key = none) : table.remove key = table := by
  rw [get?_eq_none_iff] at absent
  refine List.filter_eq_self.mpr fun entry member => bne_iff_ne.mpr fun same => absent ?_
  exact List.mem_map.mpr ⟨entry, member, same⟩

theorem nodup_keys_remove (distinct : table.keys.Nodup) (key : String) :
    (table.remove key).keys.Nodup :=
  distinct.sublist (List.filter_sublist.map Prod.fst)

/-- An updated table has entries of either table only. -/
theorem mem_update {entry : String × α} (member : entry ∈ table.update newer) :
    entry ∈ table ∨ entry ∈ newer := by
  induction newer generalizing table with
  | nil => exact Or.inl member
  | cons head rest inductionHypothesis =>
      rcases inductionHypothesis member with older | later
      · rcases mem_set older with old | rfl
        · exact Or.inl old
        · exact Or.inr List.mem_cons_self
      · exact Or.inr (List.mem_cons_of_mem _ later)

/-- Tables with the same names in the same order and related values. -/
abbrev Alike (relation : α -> β -> Prop) (first : Table α) (second : Table β) : Prop :=
  List.Forall₂ (fun entry other => entry.1 = other.1 ∧ relation entry.2 other.2) first second

section

variable {relation : α -> β -> Prop} {first : Table α} {second : Table β}

theorem get?_alike (alike : Alike relation first second) (key : String) :
    Option.Rel relation (first.get? key) (second.get? key) := by
  induction alike with
  | nil => exact .none
  | @cons entry other first second one _ inductionHypothesis =>
      rcases entry with ⟨name, value⟩
      rcases other with ⟨otherName, otherValue⟩
      rcases one with ⟨same, related⟩
      cases same
      by_cases found : name = key
      · simp only [get?, if_pos found]
        exact .some related
      · simp only [get?, if_neg found]
        exact inductionHypothesis

theorem set_alike (alike : Alike relation first second) (key : String) {value : α}
    {otherValue : β} (related : relation value otherValue) :
    Alike relation (first.set key value) (second.set key otherValue) := by
  induction alike with
  | nil => exact .cons ⟨rfl, related⟩ .nil
  | @cons entry other first second one rest inductionHypothesis =>
      rcases entry with ⟨name, old⟩
      rcases other with ⟨otherName, otherOld⟩
      have same : name = otherName := one.1
      subst same
      by_cases found : name = key
      · simp only [set, if_pos found]
        exact .cons ⟨rfl, related⟩ rest
      · simp only [set, if_neg found]
        exact .cons one inductionHypothesis

theorem update_alike {newer : Table α} {otherNewer : Table β}
    (alike : Alike relation first second) (entries : Alike relation newer otherNewer) :
    Alike relation (first.update newer) (second.update otherNewer) := by
  induction entries generalizing first second with
  | nil => exact alike
  | @cons entry other newer otherNewer one _ inductionHypothesis =>
      rcases entry with ⟨name, value⟩
      rcases other with ⟨otherName, otherValue⟩
      have same : name = otherName := one.1
      subst same
      exact inductionHypothesis (set_alike alike name one.2)

end

end Table
end QuantityCalculus
