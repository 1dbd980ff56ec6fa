import QuantityCalculus.Proofs.Arithmetic.Exact
import QuantityCalculus.Proofs.Arithmetic.NormalForm
import QuantityCalculus.Units.Batch

namespace QuantityCalculus

/-!
# Labels that are read again

A quantity is shown with a label, its magnitude in front of its unit, and a label is read as a
symbol.  A magnitude is a single letter and no two magnitudes share one, so a label has no more
than one reading as a magnitude and a remainder.  What can come between is a unit whose own symbol
is the whole label: it wins, because a symbol that is known as it stands is never taken apart.

So a label is read as what it shows exactly if its magnitude is the plain one or no enabled
catalog has a unit of that very symbol.  That no symbol occurs twice is not enough.
-/

/-! ## Magnitudes in front of a symbol -/

namespace Magnitude

/-- Every spelling of a magnitude is a single letter. -/
theorem single_of_mem_spellings {entry : String × Magnitude} (member : entry ∈ spellings) :
    ∃ letter, entry.1.toList = [letter] := by
  have each : spellings.all (fun entry => entry.1.toList.length == 1) = true := by decide
  have single := List.all_eq_true.mp each entry member
  exact List.length_eq_one_iff.mp (eq_of_beq single)

/-- A magnitude other than the plain one is the only one of its spelling. -/
theorem filter_spellings {magnitude : Magnitude} (listed : magnitude ∈ all)
    (scales : magnitude ≠ .plain) :
    spellings.filter (fun entry => entry.1 == magnitude.id) = [(magnitude.id, magnitude)] := by
  have each : forall magnitude, magnitude ∈ all -> magnitude ≠ .plain ->
      spellings.filter (fun entry => entry.1 == magnitude.id) = [(magnitude.id, magnitude)] := by
    decide
  exact each magnitude listed scales

theorem mem_spellings {magnitude : Magnitude} (listed : magnitude ∈ all)
    (scales : magnitude ≠ .plain) : (magnitude.id, magnitude) ∈ spellings :=
  List.mem_of_mem_filter (p := fun entry => entry.1 == magnitude.id)
    (filter_spellings listed scales ▸ List.mem_singleton.mpr rfl)

/-- One letter in front of a text is left out, another one does not match. -/
theorem restAfter?_single (letter other : Char) (text : List Char) :
    restAfter? [letter] (other :: text) = if letter = other then some text else none :=
  rfl

/-- The label of a magnitude and a symbol is taken apart in one way. -/
theorem splitSymbol_append {magnitude : Magnitude} (listed : magnitude ∈ all)
    (scales : magnitude ≠ .plain) (symbol : String) :
    splitSymbol (magnitude.id ++ symbol) = [(magnitude, symbol)] := by
  rcases single_of_mem_spellings (mem_spellings listed scales) with ⟨letter, spelled⟩
  have reading : forall entry, entry ∈ spellings ->
      (restAfter? entry.1.toList (magnitude.id ++ symbol).toList).map
          (fun rest => (entry.2, String.ofList rest)) =
        if entry.1 == magnitude.id then some (entry.2, symbol) else none := by
    intro entry member
    rcases single_of_mem_spellings member with ⟨other, written⟩
    have same : entry.1 = magnitude.id <-> other = letter := by
      rw [← String.toList_inj, written, spelled, List.singleton_inj]
    rw [String.toList_append, written, spelled, List.singleton_append, restAfter?_single]
    by_cases letters : other = letter
    · rw [if_pos letters, if_pos (beq_iff_eq.mpr (same.mpr letters)), Option.map_some,
        String.ofList_toList]
    · rw [if_neg letters, if_neg (mt (fun equal => same.mp (eq_of_beq equal)) letters),
        Option.map_none]
  calc splitSymbol (magnitude.id ++ symbol)
      = spellings.filterMap fun entry =>
          if entry.1 == magnitude.id then some (entry.2, symbol) else none :=
        List.filterMap_congr reading
    _ = (spellings.filter fun entry => entry.1 == magnitude.id).map
          fun entry => (entry.2, symbol) := by
        rw [← List.filterMap_eq_map, List.filterMap_filter]
        rfl
    _ = [(magnitude, symbol)] := by rw [filter_spellings listed scales, List.map_singleton]

end Magnitude

/-! ## Symbols in enabled catalogs -/

namespace Registry

variable {R : Type} {registry : Registry R} {enabled : List String}

/-- No two of some catalogs have a unit of the same symbol. -/
def KeptApart (catalogs : List (Catalog R)) : Prop :=
  catalogs.Pairwise fun first second =>
    forall symbol, symbol ∈ first.units.keys -> symbol ∉ second.units.keys

instance (catalogs : List (Catalog R)) : Decidable (KeptApart catalogs) :=
  inferInstanceAs (Decidable (List.Pairwise _ catalogs))

/-- Where no two catalogs share a symbol, each unit of theirs is found by its symbol. -/
theorem unitIn?_of_apart {catalogs : List (Catalog R)} (apart : KeptApart catalogs)
    {catalog : Catalog R} (member : catalog ∈ catalogs) {symbol : String} {unit : UnitOfMeasure}
    (held : catalog.units.get? symbol = some unit) : unitIn? symbol catalogs = some unit := by
  induction apart with
  | nil => cases member
  | cons first _ inductionHypothesis =>
      rw [unitIn?]
      rcases List.mem_cons.mp member with rfl | later
      · rw [held, Option.some_or]
      · have absent : (Table.get? symbol _) = none :=
          (Table.get?_eq_none_iff _ symbol).mpr fun here =>
            first catalog later symbol here (Table.mem_keys_of_get? held)
        rw [absent, Option.none_or]
        exact inductionHypothesis later

/-- No unit of a symbol is found exactly if no catalog has one. -/
theorem unitIn?_eq_none_iff {catalogs : List (Catalog R)} {symbol : String} :
    unitIn? symbol catalogs = none <->
      forall catalog, catalog ∈ catalogs -> symbol ∉ catalog.units.keys := by
  induction catalogs with
  | nil => exact ⟨fun _ _ member => (nomatch member), fun _ => rfl⟩
  | cons first rest inductionHypothesis =>
      rw [unitIn?, Option.or_eq_none_iff, Table.get?_eq_none_iff, inductionHypothesis,
        List.forall_mem_cons]

/-- A unit of the very symbol wins. -/
theorem resolve_exact {symbol : String} {unit : UnitOfMeasure}
    (found : unitIn? symbol (registry.enabledCatalogs enabled) = some unit) :
    registry.resolve symbol enabled = .ok (.plain, unit) := by
  rw [resolve, found]

/-- Where no unit has the whole label for its symbol, the label is read as a magnitude in front of
a unit. -/
theorem resolve_scaled {magnitude : Magnitude} (listed : magnitude ∈ Magnitude.all)
    (scales : magnitude ≠ .plain) {symbol : String} {unit : UnitOfMeasure}
    (written : symbol ≠ "")
    (whole : unitIn? (magnitude.id ++ symbol) (registry.enabledCatalogs enabled) = none)
    (found : unitIn? symbol (registry.enabledCatalogs enabled) = some unit) :
    registry.resolve (magnitude.id ++ symbol) enabled = .ok (magnitude, unit) := by
  rw [resolve, whole, Magnitude.splitSymbol_append listed scales, readScaled?, if_neg written,
    found]

end Registry

/-! ## Labels of normalized quantities -/

section

variable {R : Type} [Scalar R]

/-- Normalizing chooses among the known magnitudes. -/
theorem Quantity.magnitude_normalize_mem {quantity : Quantity R}
    (listed : quantity.magnitude ∈ Magnitude.all) :
    quantity.normalize.magnitude ∈ Magnitude.all := by
  cases dimensionless : quantity.isDimensionless with
  | true =>
      rw [normalize_dimensionless dimensionless]
      exact (by decide : Magnitude.plain ∈ Magnitude.all)
  | false =>
      cases stands : quantity.stands with
      | true =>
          rw [normalize_standing dimensionless stands]
          exact listed
      | false =>
          rw [normalize_misfit dimensionless stands]
          exact List.mem_append_left _ (Magnitude.bestFit_mem _)

/-- A normalized quantity under a magnitude has a unit with a symbol. -/
theorem Quantity.symbol_of_scaled {quantity : Quantity R}
    (scaled : quantity.normalize.magnitude ≠ .plain) : quantity.unit.label.symbol ≠ "" := by
  intro none
  have dimensionless : quantity.isDimensionless = true := beq_iff_eq.mpr none
  rw [normalize_dimensionless dimensionless] at scaled
  exact scaled rfl

/--
The label of a normalized quantity is read as its magnitude and its unit exactly if it is shown
without a magnitude, or no enabled catalog has a unit whose symbol is the whole label.  A unit of
that symbol is what the label is read as otherwise.
-/
theorem Registry.resolve_label {registry : Registry R} {enabled : List String}
    (apart : KeptApart (registry.enabledCatalogs enabled)) {catalog : Catalog R}
    (inForce : catalog ∈ registry.enabledCatalogs enabled) {quantity : Quantity R}
    (held : catalog.units.get? quantity.unit.label.symbol = some quantity.unit)
    (listed : quantity.magnitude ∈ Magnitude.all) :
    let shown := quantity.normalize
    (registry.resolve shown.label enabled = .ok (shown.magnitude, quantity.unit) <->
      shown.magnitude = .plain ∨
        forall other, other ∈ registry.enabledCatalogs enabled ->
          shown.label ∉ other.units.keys) ∧
      forall other, other ∈ registry.enabledCatalogs enabled -> forall unit,
        other.units.get? shown.label = some unit ->
          registry.resolve shown.label enabled = .ok (.plain, unit) := by
  intro shown
  have found := unitIn?_of_apart apart inForce held
  have sameUnit : shown.unit = quantity.unit := Quantity.unit_normalize quantity
  have label : shown.label = shown.magnitude.id ++ quantity.unit.label.symbol := by
    rw [Quantity.label, sameUnit]
  have exact : forall other, other ∈ registry.enabledCatalogs enabled -> forall unit,
      other.units.get? shown.label = some unit ->
        registry.resolve shown.label enabled = .ok (.plain, unit) :=
    fun other member unit here => resolve_exact (unitIn?_of_apart apart member here)
  refine ⟨⟨fun read => ?_, ?_⟩, exact⟩
  · refine or_iff_not_imp_left.mpr fun scaled other member listedThere => scaled ?_
    rcases Table.exists_of_mem_keys listedThere with ⟨unit, here⟩
    have both := read.symm.trans (exact other member unit here)
    exact congrArg Prod.fst (Except.ok.inj both)
  · intro condition
    by_cases plain : shown.magnitude = .plain
    · have symbol : shown.label = quantity.unit.label.symbol := by
        rw [label, plain]
        exact String.empty_append
      rw [plain, symbol]
      exact resolve_exact found
    · rw [label] at condition ⊢
      exact resolve_scaled (Quantity.magnitude_normalize_mem listed) plain
        (Quantity.symbol_of_scaled plain)
        (unitIn?_eq_none_iff.mpr (condition.resolve_left plain)) found

end

/-! ## Inches and minutes -/

/-- The registry with the units that are there from the start, and a catalog of everyday ones. -/
def electricityAndEveryday (symbols : List String) : Registry Float :=
  (((Registry.empty : Registry Float).withBuiltIns 15).bind fun registry =>
    symbols.foldlM (fun registry symbol =>
      (registry.defineUnit "everyday" symbol "").map Prod.snd) registry).toOption.getD .empty

def inch : UnitOfMeasure := ⟨⟨"everyday", "in"⟩, 7⟩

def minute : UnitOfMeasure := ⟨⟨"everyday", "min"⟩, 8⟩

/-- Two thousandths of an inch are two milli-inches, shown in `min`, and read as such. -/
theorem Registry.resolve_label_inches :
    (Quantity.ofUnit (0.002 : Float) inch).normalize.label = "min" ∧
      (electricityAndEveryday ["in"]).resolve "min" ["electric", "everyday"] =
        .ok (.milli, inch) := by
  have known : KeptApart
      ((electricityAndEveryday ["in"]).enabledCatalogs ["electric", "everyday"]) ∧
      ⟨[("in", inch)], []⟩ ∈
        (electricityAndEveryday ["in"]).enabledCatalogs ["electric", "everyday"] := by
    decide +kernel
  have shown : (Quantity.ofUnit (0.002 : Float) inch).normalize.label = "min" ∧
      (Quantity.ofUnit (0.002 : Float) inch).normalize.magnitude = .milli := by
    decide
  have unclaimed : forall other,
      other ∈ (electricityAndEveryday ["in"]).enabledCatalogs ["electric", "everyday"] ->
        "min" ∉ other.units.keys := by
    decide +kernel
  have held : Table.get? (Quantity.ofUnit (0.002 : Float) inch).unit.label.symbol [("in", inch)] =
      some (Quantity.ofUnit (0.002 : Float) inch).unit :=
    rfl
  have read := (Registry.resolve_label known.1 known.2 held (by decide)).1
  rw [shown.1, shown.2] at read
  exact ⟨shown.1, read.mpr (Or.inr unclaimed)⟩

/-- Where minutes are known as well, the same label is read as minutes. -/
theorem Registry.label_read_as_minutes :
    let registry := electricityAndEveryday ["in", "min"]
    KeptApart (registry.enabledCatalogs ["electric", "everyday"]) ∧
      ⟨[("in", inch), ("min", minute)], []⟩ ∈
        registry.enabledCatalogs ["electric", "everyday"] ∧
      (Quantity.ofUnit (0.002 : Float) inch).normalize.label = "min" ∧
      (Quantity.ofUnit (0.002 : Float) inch).normalize.magnitude = .milli ∧
      registry.resolve "min" ["electric", "everyday"] = .ok (.plain, minute) := by
  have facts : KeptApart ((electricityAndEveryday ["in", "min"]).enabledCatalogs
        ["electric", "everyday"]) ∧
      ⟨[("in", inch), ("min", minute)], []⟩ ∈ (electricityAndEveryday ["in", "min"]).enabledCatalogs
        ["electric", "everyday"] ∧
      (Quantity.ofUnit (0.002 : Float) inch).normalize.label = "min" ∧
      (Quantity.ofUnit (0.002 : Float) inch).normalize.magnitude = .milli ∧
      ((electricityAndEveryday ["in", "min"]).resolve "min" ["electric", "everyday"]).toOption =
        some (.plain, minute) := by
    decide +kernel
  rcases facts with ⟨apart, inForce, label, magnitude, read⟩
  exact ⟨apart, inForce, label, magnitude, eq_ok_of_toOption read⟩

end QuantityCalculus
