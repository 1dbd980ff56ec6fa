import QuantityCalculus.Proofs.Evaluation.CallScope
import QuantityCalculus.Proofs.Session.Stack

namespace QuantityCalculus

/-!
# Clearing a session

Clearing everything takes away what the scope on top holds, and then that scope itself
with all others above the base.  So the base loses what it holds only if it was on top.
While an expression is edited, what is bound and remembered in the base stays there, and
comes to light as soon as the scopes above it are gone.
-/

variable {R : Type}

/-! ## The scopes -/

namespace Scopes

variable (scopes : Scopes R)

/-- The scopes with one of them emptied. -/
def emptied (id : ScopeId) : Scopes R :=
  (scopes.clearBindings id).clearMemory id

/-- A scope without what it holds. -/
def holdingNothing (entry : ScopeId × Scope R) : ScopeId × Scope R :=
  (entry.1, { entry.2 with bindings := [], memory := [] })

theorem chain_emptied (id place : ScopeId) :
    (scopes.emptied id).chain place =
      (scopes.chain place).map fun entry => if entry.1 = id then holdingNothing entry else entry := by
  rw [emptied, clearMemory, chain_update (by exact fun _ => rfl), clearBindings,
    chain_update (by exact fun _ => rfl), List.map_map]
  refine List.map_congr_left fun entry _ => ?_
  by_cases here : entry.1 = id
  · simp only [Function.comp_apply, if_pos here]
    rfl
  · simp only [Function.comp_apply, if_neg here]

/-- Only the base is in sight from the base. -/
theorem fst_of_mem_chain_base {entry : ScopeId × Scope R}
    (member : entry ∈ scopes.chain Session.base) : entry.1 = Session.base :=
  Nat.eq_zero_of_le_zero (le_of_mem_chain member)

/-- Another scope that is emptied does not change what is in sight from the base. -/
theorem chain_emptied_other {id : ScopeId} (other : id ≠ Session.base) :
    (scopes.emptied id).chain Session.base = scopes.chain Session.base := by
  rw [chain_emptied]
  refine (List.map_congr_left fun entry member => ?_).trans (List.map_id _)
  have place := scopes.fst_of_mem_chain_base member
  exact if_neg fun same => other (same.symm.trans place)

theorem chain_emptied_base :
    (scopes.emptied Session.base).chain Session.base =
      (scopes.chain Session.base).map holdingNothing := by
  rw [chain_emptied]
  exact List.map_congr_left fun entry member => if_pos (scopes.fst_of_mem_chain_base member)

theorem isBound_emptied_base (name : String) :
    (scopes.emptied Session.base).isBound Session.base name = false := by
  rw [isBound, chain_emptied_base, List.any_map, List.any_eq_false]
  exact fun _ _ => Bool.false_ne_true

theorem visible_emptied_base : (scopes.emptied Session.base).visible Session.base = [] := by
  rw [visible, chain_emptied_base, List.foldr_map]
  induction scopes.chain Session.base with
  | nil => rfl
  | cons _ _ inductionHypothesis => exact inductionHypothesis

theorem memoryValues_emptied_base :
    (scopes.emptied Session.base).memoryValues Session.base = [] := by
  rw [memoryValues, chain_emptied_base, List.flatMap_map]
  exact List.flatMap_eq_nil_iff.mpr fun _ _ => rfl

end Scopes

/-! ## The line -/

/-- The line asks to clear everything. -/
def Line.clearsAll : Line -> Bool
  | .command .clear words => (words.head?.map Text.lowerCase).getD "all" == "all"
  | _ => false

example : (Line.ofText "clear all".toList).clearsAll = true ∧
    (Line.ofText "clear".toList).clearsAll = true := by
  decide +kernel

namespace Session

/-- The session with its top emptied, and then only the base left. -/
def cleared (session : Session R) : Session R :=
  { session with
    scopes := session.scopes.emptied session.current
    editing := []
    stash := []
    target := none }

variable [Scalar R]

theorem execute_clearsAll (session : Session R) {input : String}
    (clears : (Line.ofText (Text.trim input.toList)).clearsAll = true) :
    session.execute input = (["Cleared all"], session.cleared) := by
  have run : (Line.ofText (Text.trim input.toList)).run session =
      (.ok ["Cleared all"], session.cleared) := by
    generalize Line.ofText (Text.trim input.toList) = line at clears
    unfold Line.clearsAll at clears
    split at clears
    · rename_i words
      have what : (words.head?.map Text.lowerCase).getD "all" = "all" := eq_of_beq clears
      change Action.clear words session = _
      rw [Action.clear, what]
      rfl
    · cases clears
  rw [execute]
  split
  · rename_i empty
    rw [empty] at clears
    cases clears
  · rw [run]

/-- A session that keeps nothing in files starts. -/
theorem exists_start_without_files :
    ∃ first : Session Float, start ⟨none, 15, true⟩ none = .ok first := by
  rcases Option.isSome_iff_exists.mp (by decide +kernel :
    (start ⟨none, 15, true⟩ none : Except LoadFault (Session Float)).toOption.isSome) with
    ⟨first, known⟩
  exact ⟨first, eq_ok_of_toOption known⟩

/-- Clearing everything, in any session that was ever started, after any lines.  What is bound
and remembered in the base is gone only if no expression was edited. -/
theorem clear_all {options : SessionOptions} {files : Option FileTree} {first : Session R}
    (started : start options files = .ok first) (inputs : List String) {input : String}
    (clears : (Line.ofText (Text.trim input.toList)).clearsAll = true) :
    let before := first.afterLines inputs
    let after := (before.execute input).2
    (before.execute input).1 = ["Cleared all"] ∧
      after.isEditing = false ∧ after.stash = [] ∧ after.target = none ∧ after.current = base ∧
      (forall name, after.scopes.isBound after.current name =
        (before.isEditing && before.scopes.isBound base name)) ∧
      (after.scopes.visible after.current =
        if before.isEditing then before.scopes.visible base else []) ∧
      after.scopes.memoryValues after.current =
        if before.isEditing then before.scopes.memoryValues base else [] := by
  intro before after
  have kept : before.Disciplined := disciplined_afterLines (disciplined_start started) inputs
  have same : before.execute input = (["Cleared all"], before.cleared) :=
    before.execute_clearsAll clears
  have result : after = before.cleared := congrArg Prod.snd same
  rw [result]
  refine ⟨congrArg Prod.fst same, rfl, rfl, rfl, rfl, ?_⟩
  change (forall name, (before.scopes.emptied before.current).isBound base name = _) ∧
    (before.scopes.emptied before.current).visible base = _ ∧
    (before.scopes.emptied before.current).memoryValues base = _
  cases places : before.editing with
  | nil =>
      have top : before.current = base := by rw [current, places, List.headD_nil]
      have none : before.isEditing = false := by rw [isEditing, places]; rfl
      rw [top, none]
      exact ⟨before.scopes.isBound_emptied_base, before.scopes.visible_emptied_base,
        before.scopes.memoryValues_emptied_base⟩
  | cons scope rest =>
      have top : before.current = scope := by rw [current, places, List.headD_cons]
      have some : before.isEditing = true := by rw [isEditing, places]; rfl
      have other : scope ≠ base := by
        rintro rfl
        refine (List.nodup_cons.mp kept.distinct).1 (List.mem_append_left _ ?_)
        rw [places]
        exact List.mem_cons_self
      have sight := before.scopes.chain_emptied_other other
      rw [top, some, if_pos rfl, if_pos rfl, Scopes.visible, Scopes.memoryValues, sight]
      refine ⟨fun name => ?_, rfl, rfl⟩
      rw [Scopes.isBound, sight, Bool.true_and]
      rfl

theorem clear_all_nested :
    ∃ first : Session Float, start ⟨none, 15, true⟩ none = .ok first ∧
      (Line.ofText (Text.trim "clear all".toList)).clearsAll = true ∧
      let before := first.afterLines ["a*b", "a = c", "d+e"]
      let after := (before.execute "clear all").2
      (before.execute "clear all").1 = ["Cleared all"] ∧ after.current = base ∧
        after.scopes.isBound after.current "a" = before.scopes.isBound base "a" := by
  rcases exists_start_without_files with ⟨first, started⟩
  have clears : (Line.ofText (Text.trim "clear all".toList)).clearsAll = true := by decide +kernel
  have edits : (start ⟨none, 15, true⟩ none : Except LoadFault (Session Float)).toOption.map
      (fun first => (first.afterLines ["a*b", "a = c", "d+e"]).isEditing) = some true := by
    decide +kernel
  rw [started] at edits
  rcases clear_all started ["a*b", "a = c", "d+e"] clears with
    ⟨shown, _, _, _, top, bound, _⟩
  have editing : (first.afterLines ["a*b", "a = c", "d+e"]).isEditing = true :=
    Option.some.inj edits
  refine ⟨first, started, clears, shown, top, (bound "a").trans ?_⟩
  rw [editing, Bool.true_and]

/-- What is bound in the base can be seen again after everything was cleared. -/
theorem clear_all_bound :
    ∃ first : Session Float, start ⟨none, 15, true⟩ none = .ok first ∧
      let session := first.afterLines ["x = z", "a*b", "clear all"]
      session.isEditing = false ∧ session.scopes.isBound session.current "x" = true := by
  rcases exists_start_without_files with ⟨first, started⟩
  have outcome : (start ⟨none, 15, true⟩ none : Except LoadFault (Session Float)).toOption.map
      (fun first =>
        let session := first.afterLines ["x = z", "a*b", "clear all"]
        (session.isEditing, session.scopes.isBound session.current "x")) =
      some (false, true) := by decide +kernel
  rw [started] at outcome
  have parts := Option.some.inj outcome
  exact ⟨first, started, congrArg Prod.fst parts, congrArg Prod.snd parts⟩

end Session
end QuantityCalculus
