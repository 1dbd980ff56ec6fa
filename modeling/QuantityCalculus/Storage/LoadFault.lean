import QuantityCalculus.Failure

namespace QuantityCalculus

/-!
Why something that was kept cannot be loaded.

Most faults are failures of what a text says.  The others concern the shape of
what was kept: a directory where a text is expected, a number too long to be
read, or a setting that is no text where a word is expected.
-/

/-- The causes that keep something from being loaded. -/
inductive LoadFault where
  | failure (cause : Failure)
  /-- A directory stands where a text is expected. -/
  | notAText (path : String)
  /-- A whole number in the settings has more digits than are read. -/
  | numberTooLong
  /-- The angle mode that was kept is not even a word. -/
  | angleModeNotAWord
  /-- A container stands in the place of the name of a catalog. -/
  | catalogNameNotAName
deriving DecidableEq, Repr

/-- A result of the calculus as a result of loading. -/
def LoadFault.lift {α : Type} (result : Except Failure α) : Except LoadFault α :=
  result.mapError .failure

theorem LoadFault.lift_eq_ok {α : Type} {result : Except Failure α} {value : α} :
    LoadFault.lift result = .ok value <-> result = .ok value := by
  cases result with
  | error failure => exact ⟨nofun, nofun⟩
  | ok found => exact ⟨fun same => congrArg Except.ok (Except.ok.inj same), fun same => same ▸ rfl⟩

end QuantityCalculus
