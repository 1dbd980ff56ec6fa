import QuantityCalculus.Proofs.ReadingBack.WrittenAgain
import QuantityCalculus.Proofs.Storage.FunctionLines
import QuantityCalculus.Proofs.Tables

namespace QuantityCalculus

open Source

/-!
# Functions written, read and written again

A function whose body and defaults were built by reading and solving comes back from its text
with the defaults in their order.  Its expressions come back grouped, and with square roots for
the roots of index two.  Neither shows in a text, so that the function is written the second time
as it was the first time: once saved, a function does not drift.
-/

variable {places : Nat}

/-- An expression of a function, as reading and solving build it.  Its names are free, its
literals read back, preparation leaves its unit symbols alone, and its text is not too long or too
deeply nested to be accepted. -/
structure Expr.Savable (places : Nat) (expr : Expr Float) : Prop where
  built : Built expr
  writable : expr.Writable (ReadsBack places) IsFreeName
  short : (expr.grouped.plain places).length ≤ lengthLimit
  shallow : parse (R := Float) (expr.grouped.text places) ≠ .error (.tooDeeplyNested nestingLimit)

theorem Expr.Savable.keepable {expr : Expr Float} (savable : expr.Savable places) :
    expr.Keepable places :=
  ⟨savable.built.wellMarked,
    Expr.Writable.imp (fun _ readsBack => readsBack.literalReads) expr savable.writable,
    savable.short, savable.shallow⟩

/-- A function with expressions that can be saved, and with defaults for different names. -/
structure FunctionDefinition.Savable (places : Nat) (definition : FunctionDefinition Float) :
    Prop where
  body : definition.body.Savable places
  names : forall entry, entry ∈ definition.defaults -> Text.isName entry.1.toList = true
  distinct : definition.defaults.keys.Nodup
  defaults : forall entry, entry ∈ definition.defaults -> entry.2.Savable places

namespace FunctionDefinition

variable {definition : FunctionDefinition Float}

theorem Savable.keepable (savable : definition.Savable places) : definition.Keepable places :=
  ⟨savable.body.keepable, savable.names,
    fun entry listed => (savable.defaults entry listed).keepable⟩

/-- The defaults as they are read back, in their order. -/
def rereadDefaults (definition : FunctionDefinition Float) : Table (Expr Float) :=
  definition.defaults.map fun entry => (entry.1, entry.2.grouped.plainRoots)

theorem keys_rereadDefaults (definition : FunctionDefinition Float) :
    definition.rereadDefaults.keys = definition.defaults.keys :=
  List.map_map

/-- Of different names none takes the place of another. -/
theorem reread_eq (distinct : definition.defaults.keys.Nodup) :
    definition.reread = ⟨definition.body.grouped.plainRoots, definition.rereadDefaults⟩ := by
  have different : definition.rereadDefaults.keys.Nodup := by rwa [keys_rereadDefaults]
  rw [reread, ← rereadDefaults, Table.update_nil_of_nodup different]

/-- What is read back is written as what was read. -/
theorem text_reread (places : Nat) (definition : FunctionDefinition Float) :
    text places ⟨definition.body.grouped.plainRoots, definition.rereadDefaults⟩ =
      definition.text places := by
  have lines : definition.rereadDefaults.map (defaultLine places) =
      definition.defaults.map (defaultLine places) := by
    rw [rereadDefaults, List.map_map]
    refine List.map_congr_left fun entry _ => ?_
    exact congrArg (entry.1 ++ " = " ++ ·) (Expr.text_reread places entry.2)
  change String.intercalate "\n" (definition.body.grouped.plainRoots.grouped.text places ::
    definition.rereadDefaults.map (defaultLine places)) ++ "\n" = _
  rw [lines, Expr.text_reread]
  rfl

/-- The text of a function is read back.  The names of the defaults stay in their order, and the
expressions come back grouped, with square roots for the roots of index two.  The function that
is read back has the same text. -/
theorem savedText_reads_back (savable : definition.Savable places) (name : String) :
    ∃ reread : FunctionDefinition Float, parse name (definition.text places) = .ok reread ∧
      reread.body = definition.body.grouped.plainRoots ∧
      reread.defaults =
        definition.defaults.map (fun entry => (entry.1, entry.2.grouped.plainRoots)) ∧
      reread.defaults.keys = definition.defaults.keys ∧
      reread.text places = definition.text places := by
  have read := savable.keepable.parse name
  rw [reread_eq savable.distinct] at read
  exact ⟨_, read, rfl, rfl, keys_rereadDefaults definition, text_reread places definition⟩

/-- The solution of `k*2-1 = z` for `k`. -/
def halfSum : Expr Float :=
  .binary .divide (.binary .add (.var "z") (.num (Number.readSpelling ['1'])))
    (.num (Number.readSpelling ['2']))

/-- Both the body and the default are solutions.  Both need parentheses, and the body is a root of
index two. -/
def ofSolutions : FunctionDefinition Float :=
  ⟨squareDifferenceSolved, [("b", halfSum)]⟩

theorem halfSum_built : Built halfSum := by
  have solves : ((Source.parse (R := Float) "k*2-1").toOption.bind fun read =>
      (solve read "k" "z").toOption) = some halfSum := by decide +kernel
  rcases Option.bind_eq_some_iff.mp solves with ⟨read, found, solved⟩
  exact .solved (.read (eq_ok_of_toOption found)) (eq_ok_of_toOption solved)

theorem ofSolutions_savable : ofSolutions.Savable 15 := by
  have free : IsFreeName "a" ∧ IsFreeName "y" ∧ IsFreeName "b" ∧ IsFreeName "z" := by
    unfold IsFreeName
    decide +kernel
  have one : ReadsBack 15 (Number.readSpelling ['1']) :=
    ⟨by decide +kernel, by decide +kernel, by decide +kernel⟩
  have two : ReadsBack 15 (Number.readSpelling ['2']) :=
    ⟨by decide +kernel, by decide +kernel, by decide +kernel⟩
  have value : halfSum.Savable 15 :=
    ⟨halfSum_built, ⟨⟨free.2.2.2, one⟩, two⟩, by decide +kernel,
      shallow_of_accepted (by decide +kernel)⟩
  exact
    { body := ⟨squareDifferenceSolved_built, ⟨⟨free.1, free.2.1, free.2.2.1⟩, two⟩,
        by decide +kernel, shallow_of_accepted (by decide +kernel)⟩
      names := by decide
      distinct := by decide
      defaults := fun entry listed => List.mem_singleton.mp listed ▸ value }

theorem savedText_reads_back_ofSolutions :
    ofSolutions.text 15 = "sqrt(a-(y-b))\nb = (z+1)/2\n" ∧
      ∃ reread : FunctionDefinition Float, parse "f" (ofSolutions.text 15) = .ok reread ∧
        reread.body = squareDifferenceSolved.grouped.plainRoots ∧
        reread.defaults = [("b", halfSum.grouped.plainRoots)] ∧
        reread.defaults.keys = ["b"] ∧ reread.text 15 = ofSolutions.text 15 :=
  ⟨by decide +kernel, savedText_reads_back ofSolutions_savable "f"⟩

end FunctionDefinition

end QuantityCalculus
