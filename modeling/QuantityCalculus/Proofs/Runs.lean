import Mathlib.Data.List.Forall2
import QuantityCalculus.Failure

namespace QuantityCalculus

/-!
# Running the parts of a computation

A computation that changes a state and may fail keeps the state it has reached, also when it
fails.  These lemmas say what a computation in two parts does from what its parts do.  Where
only the failures matter, it is enough to know which ones each part may end in.
-/

/-! ## Failures that are expected -/

/-- Whatever failure the result is, it is one that is expected. -/
def FailsOnly (expected : Failure -> Prop) {α : Type} (result : Except Failure α) : Prop :=
  forall failure, result = .error failure -> expected failure

namespace FailsOnly

variable {expected : Failure -> Prop} {α β : Type}

theorem ok (value : α) : FailsOnly expected (.ok value) :=
  nofun

theorem fault {failure : Failure} (isExpected : expected failure) :
    FailsOnly expected (.error failure : Except Failure α) := by
  intro other same
  cases same
  exact isExpected

theorem bind {first : Except Failure α} {rest : α -> Except Failure β}
    (one : FailsOnly expected first) (two : forall value, FailsOnly expected (rest value)) :
    FailsOnly expected (first >>= rest) := by
  intro failure failed
  rcases bind_eq_error.mp failed with here | ⟨value, _, later⟩
  · exact one failure here
  · exact two value failure later

theorem map {result : Except Failure α} (fails : FailsOnly expected result) (f : α -> β) :
    FailsOnly expected (result.map f) := by
  cases result with
  | error failure => exact fault (fails failure rfl)
  | ok value => exact ok _

theorem mapM {f : α -> Except Failure β} (each : forall item, FailsOnly expected (f item))
    (items : List α) : FailsOnly expected (items.mapM f) := by
  induction items with
  | nil => exact ok []
  | cons first rest inductionHypothesis =>
      rw [List.mapM_cons]
      exact (each first).bind fun _ => inductionHypothesis.bind fun _ => ok _

end FailsOnly

/-! ## Computations over lists -/

section

variable {α β γ : Type} {f : α -> Except Failure β} {items : List α} {results : List β}

/-- A computation over a list succeeds with the results of its members. -/
theorem mapM_eq_ok_iff :
    items.mapM f = .ok results <-> List.Forall₂ (fun item result => f item = .ok result)
      items results := by
  induction items generalizing results with
  | nil =>
      rw [List.mapM_nil, List.forall₂_nil_left_iff]
      exact ⟨fun same => (Except.ok.inj same).symm, fun same => congrArg Except.ok same.symm⟩
  | cons first rest inductionHypothesis =>
      rw [List.mapM_cons, List.forall₂_cons_left_iff]
      constructor
      · intro succeeded
        rcases bind_eq_ok.mp succeeded with ⟨head, here, succeeded⟩
        rcases bind_eq_ok.mp succeeded with ⟨tail, further, succeeded⟩
        cases succeeded
        exact ⟨head, tail, here, inductionHypothesis.mp further, rfl⟩
      · rintro ⟨head, tail, here, further, rfl⟩
        exact (bind_eq_of_ok here).trans (bind_eq_of_ok (inductionHypothesis.mpr further))

/-- It succeeds if it does for each member. -/
theorem exists_mapM :
    (∃ results, items.mapM f = .ok results) <->
      forall item, item ∈ items -> ∃ result, f item = .ok result := by
  simp only [mapM_eq_ok_iff]
  induction items with
  | nil => exact ⟨fun _ => nofun, fun _ => ⟨[], .nil⟩⟩
  | cons first rest inductionHypothesis =>
      simp only [List.forall₂_cons_left_iff, List.forall_mem_cons, ← inductionHypothesis]
      constructor
      · rintro ⟨_, head, tail, here, further, _⟩
        exact ⟨⟨head, here⟩, tail, further⟩
      · rintro ⟨⟨head, here⟩, tail, further⟩
        exact ⟨_, head, tail, here, further, rfl⟩

/-- What it returns, it returns for members of the list. -/
theorem of_mem_mapM (succeeded : items.mapM f = .ok results) {result : β}
    (member : result ∈ results) : ∃ item, item ∈ items ∧ f item = .ok result := by
  have each := mapM_eq_ok_iff.mp succeeded
  clear succeeded
  induction each with
  | nil => cases member
  | cons here _ inductionHypothesis =>
      rcases List.mem_cons.mp member with rfl | later
      · exact ⟨_, List.mem_cons_self, here⟩
      · rcases inductionHypothesis later with ⟨item, inside, found⟩
        exact ⟨item, List.mem_cons_of_mem _ inside, found⟩

/-- What each result has from its member, the results have from the list. -/
theorem map_of_mapM (succeeded : items.mapM f = .ok results) {kept : β -> γ} {given : α -> γ}
    (keeps : forall {item result}, f item = .ok result -> kept result = given item) :
    results.map kept = items.map given := by
  have each := mapM_eq_ok_iff.mp succeeded
  clear succeeded
  induction each with
  | nil => rfl
  | cons here _ inductionHypothesis =>
      rw [List.map_cons, List.map_cons, keeps here, inductionHypothesis]

end

/-! ## Computations on a state -/

/-- A computation on a state. -/
abbrev Stateful (State : Type) := ExceptT Failure (StateM State)

variable {State α β : Type} {first : Stateful State α} {rest : α -> Stateful State β}
  {state : State}

theorem run_bind (first : Stateful State α) (rest : α -> Stateful State β) (state : State) :
    (first >>= rest) state =
      match first state with
      | (.ok value, middle) => rest value middle
      | (.error failure, middle) => (.error failure, middle) := by
  change ExceptT.bindCont rest (first state).1 (first state).2 = _
  rcases first state with ⟨_ | _, _⟩ <;> rfl

/-- A computation in two parts goes on where the first part succeeded. -/
theorem run_bind_of_ok {value : α} {middle : State}
    (succeeded : first state = (.ok value, middle)) (rest : α -> Stateful State β) :
    (first >>= rest) state = rest value middle := by
  rw [run_bind, succeeded]

/-- A computation in two parts fails in one of them. -/
theorem run_bind_eq_error {failure : Failure} {after : State} :
    (first >>= rest) state = (.error failure, after) <->
      first state = (.error failure, after) ∨
        ∃ value middle, first state = (.ok value, middle) ∧
          rest value middle = (.error failure, after) := by
  rw [run_bind]
  rcases first state with ⟨_ | value, middle⟩
  · constructor
    · intro failed
      cases failed
      exact Or.inl rfl
    · rintro (same | ⟨_, _, impossible, _⟩)
      · cases same
        rfl
      · cases impossible
  · refine ⟨fun later => Or.inr ⟨value, middle, rfl, later⟩, ?_⟩
    rintro (impossible | ⟨_, _, same, later⟩)
    · cases impossible
    · cases same
      exact later

/-- A computation in two parts succeeds when both do. -/
theorem run_bind_eq_ok {result : β} {after : State} :
    (first >>= rest) state = (.ok result, after) <->
      ∃ value middle, first state = (.ok value, middle) ∧
        rest value middle = (.ok result, after) := by
  rw [run_bind]
  rcases first state with ⟨_ | value, middle⟩
  · refine ⟨nofun, ?_⟩
    rintro ⟨_, _, impossible, _⟩
    cases impossible
  · refine ⟨fun later => ⟨value, middle, rfl, later⟩, ?_⟩
    rintro ⟨_, _, same, later⟩
    cases same
    exact later

theorem run_get_bind (rest : State -> Stateful State β) (state : State) :
    ((get : Stateful State State) >>= rest) state = rest state state :=
  rfl

end QuantityCalculus
