import QuantityCalculus.Proofs.ReadingBack.Grouped

namespace QuantityCalculus

/-!
# Trees that are written again

What is read back from the text of a grouped tree is not that tree: its roots of index two have
become square roots.  It has the same text nevertheless.  Neither the parentheses that a tree
needs nor its text depend on how a square root is given, and a grouped tree needs no further
parentheses.
-/

variable {R : Type} [Scalar R]

/-! ## Parentheses are put once -/

theorem grouped_parenIf {needed : Bool} {x : Expr R} :
    (parenIf needed x).grouped = parenIf needed x.grouped := by
  cases needed <;> rfl

theorem isSquareIndex_grouped (x : Expr R) : isSquareIndex x.grouped = isSquareIndex x := by
  cases x <;> rfl

/-- An operand that is in parentheses if it needs them needs no more. -/
theorem group_settled {needs : Expr R -> Bool} (enclosed : forall x, needs (.paren x) = false)
    {x : Expr R} (same : x.grouped.grouped = x.grouped) :
    parenIf (needs (parenIf (needs x.grouped) x.grouped).grouped)
        (parenIf (needs x.grouped) x.grouped).grouped =
      parenIf (needs x.grouped) x.grouped := by
  rw [grouped_parenIf, same]
  cases needed : needs x.grouped with
  | true =>
      change parenIf (needs (.paren x.grouped)) (.paren x.grouped) = .paren x.grouped
      rw [enclosed]
      rfl
  | false =>
      change parenIf (needs x.grouped) x.grouped = x.grouped
      rw [needed]
      rfl

mutual

/-- A grouped tree needs no further parentheses. -/
theorem Expr.grouped_grouped : (x : Expr R) -> x.grouped.grouped = x.grouped
  | .num _ | .var _ | .mem | .target _ => rfl
  | .memAt x => congrArg Expr.memAt (Expr.grouped_grouped x)
  | .func kind x => congrArg (Expr.func kind) (Expr.grouped_grouped x)
  | .sqrt x => congrArg Expr.sqrt (Expr.grouped_grouped x)
  | .abs x => congrArg Expr.abs (Expr.grouped_grouped x)
  | .paren x => congrArg Expr.paren (Expr.grouped_grouped x)
  | .binding name x => congrArg (Expr.binding name) (Expr.grouped_grouped x)
  | .declaration name x => congrArg (Expr.declaration name) (Expr.grouped_grouped x)
  | .root x i => congrArg₂ Expr.root (Expr.grouped_grouped x) (Expr.grouped_grouped i)
  | .fraction x y => congrArg₂ Expr.fraction (Expr.grouped_grouped x) (Expr.grouped_grouped y)
  | .equation x y => congrArg₂ Expr.equation (Expr.grouped_grouped x) (Expr.grouped_grouped y)
  | .factorial x => congrArg Expr.factorial (group_settled (fun _ => rfl) (Expr.grouped_grouped x))
  | .marked mark x =>
      congrArg (Expr.marked mark) (group_settled (fun _ => rfl) (Expr.grouped_grouped x))
  | .binary op x y =>
      congrArg₂ (Expr.binary op) (group_settled (fun _ => rfl) (Expr.grouped_grouped x))
        (group_settled (fun _ => rfl) (Expr.grouped_grouped y))
  | .call name arguments => congrArg (Expr.call name) (Arguments.grouped_grouped arguments)

theorem Arguments.grouped_grouped : (arguments : Arguments R) ->
    arguments.grouped.grouped = arguments.grouped
  | .nil => rfl
  | .cons name value rest =>
      congrArg₂ (Arguments.cons name) (Expr.grouped_grouped value) (Arguments.grouped_grouped rest)

end

/-! ## Square roots -/

theorem parenIf_plainRoots {needed : Bool} {x : Expr R} :
    (parenIf needed x).plainRoots = parenIf needed x.plainRoots := by
  cases needed <;> rfl

theorem isSquareIndex_plainRoots (x : Expr R) : isSquareIndex x.plainRoots = isSquareIndex x := by
  cases x with
  | root x i =>
      rw [Expr.plainRoots]
      split <;> rfl
  | _ => rfl

/-- A root needs no parentheses, however it is given. -/
theorem needsGroup_plainRoots (x : Expr R) :
    needsGroupBefore x.plainRoots = needsGroupBefore x ∧
      forall op left, needsGroupBeside op left x.plainRoots = needsGroupBeside op left x := by
  cases x with
  | root x i =>
      rw [Expr.plainRoots]
      split <;> exact ⟨rfl, fun _ _ => rfl⟩
  | _ => exact ⟨rfl, fun _ _ => rfl⟩

mutual

/-- Parentheses are put in the same places, whichever way square roots are given. -/
theorem Expr.grouped_plainRoots : (x : Expr R) -> x.plainRoots.grouped = x.grouped.plainRoots
  | .num _ | .var _ | .mem | .target _ => rfl
  | .memAt x => congrArg Expr.memAt (Expr.grouped_plainRoots x)
  | .func kind x => congrArg (Expr.func kind) (Expr.grouped_plainRoots x)
  | .sqrt x => congrArg Expr.sqrt (Expr.grouped_plainRoots x)
  | .abs x => congrArg Expr.abs (Expr.grouped_plainRoots x)
  | .paren x => congrArg Expr.paren (Expr.grouped_plainRoots x)
  | .binding name x => congrArg (Expr.binding name) (Expr.grouped_plainRoots x)
  | .declaration name x => congrArg (Expr.declaration name) (Expr.grouped_plainRoots x)
  | .fraction x y =>
      congrArg₂ Expr.fraction (Expr.grouped_plainRoots x) (Expr.grouped_plainRoots y)
  | .equation x y =>
      congrArg₂ Expr.equation (Expr.grouped_plainRoots x) (Expr.grouped_plainRoots y)
  | .root x i => by
      rw [Expr.plainRoots, Expr.grouped, Expr.plainRoots, isSquareIndex_grouped]
      split
      · exact congrArg Expr.sqrt (Expr.grouped_plainRoots x)
      · exact congrArg₂ Expr.root (Expr.grouped_plainRoots x) (Expr.grouped_plainRoots i)
  | .factorial x => by
      rw [Expr.plainRoots, Expr.grouped, Expr.grouped, Expr.plainRoots, parenIf_plainRoots,
        Expr.grouped_plainRoots x, (needsGroup_plainRoots x.grouped).1]
  | .marked mark x => by
      rw [Expr.plainRoots, Expr.grouped, Expr.grouped, Expr.plainRoots, parenIf_plainRoots,
        Expr.grouped_plainRoots x, (needsGroup_plainRoots x.grouped).1]
  | .binary op x y => by
      rw [Expr.plainRoots, Expr.grouped, Expr.grouped, Expr.plainRoots, parenIf_plainRoots,
        parenIf_plainRoots, Expr.grouped_plainRoots x, Expr.grouped_plainRoots y,
        (needsGroup_plainRoots x.grouped).2, (needsGroup_plainRoots y.grouped).2]
  | .call name arguments => congrArg (Expr.call name) (Arguments.grouped_plainRoots arguments)

theorem Arguments.grouped_plainRoots : (arguments : Arguments R) ->
    arguments.plainRoots.grouped = arguments.grouped.plainRoots
  | .nil => rfl
  | .cons name value rest =>
      congrArg₂ (Arguments.cons name) (Expr.grouped_plainRoots value)
        (Arguments.grouped_plainRoots rest)

end

mutual

/-- Both ways of giving a square root have one text. -/
theorem Expr.plain_plainRoots (places : Nat) : (x : Expr R) ->
    x.plainRoots.plain places = x.plain places
  | .num _ | .var _ | .mem | .target _ => rfl
  | .memAt x | .func _ x | .factorial x | .sqrt x | .abs x | .paren x | .marked _ x
  | .binding _ x | .declaration _ x => by
      simp only [Expr.plainRoots, Expr.plain, Expr.plain_plainRoots places x]
  | .fraction x y | .binary _ x y | .equation x y => by
      simp only [Expr.plainRoots, Expr.plain, Expr.plain_plainRoots places x,
        Expr.plain_plainRoots places y]
  | .root x i => by
      rw [Expr.plainRoots, Expr.plain]
      split
      · rw [Expr.plain, Expr.plain_plainRoots places x]
      · rename_i notSquare
        rw [Expr.plain, isSquareIndex_plainRoots, if_neg notSquare,
          Expr.plain_plainRoots places x, Expr.plain_plainRoots places i]
  | .call name .nil => rfl
  | .call name (.cons key value rest) => by
      have same := Arguments.plain_plainRoots places (.cons key value rest)
      rw [Arguments.plainRoots] at same
      rw [Expr.plainRoots, Arguments.plainRoots, Expr.plain, Expr.plain, same]
      all_goals exact nofun

theorem Arguments.plain_plainRoots (places : Nat) : (arguments : Arguments R) ->
    arguments.plainRoots.plain places = arguments.plain places
  | .nil => rfl
  | .cons name value rest => by
      rw [Arguments.plainRoots, Arguments.plain, Arguments.plain,
        Expr.plain_plainRoots places value, Arguments.plain_plainRoots places rest]

end

/-- What is read back from the text of a grouped tree has the parentheses that it needs. -/
theorem Expr.grouped_reread (x : Expr R) :
    x.grouped.plainRoots.grouped = x.grouped.plainRoots := by
  rw [Expr.grouped_plainRoots, Expr.grouped_grouped]

/-- What is read back from the text of a grouped tree has this text. -/
theorem Expr.text_reread (places : Nat) (x : Expr R) :
    x.grouped.plainRoots.grouped.text places = x.grouped.text places := by
  rw [Expr.grouped_reread, Expr.text, Expr.text, Expr.write, Expr.write, Expr.plain_plainRoots]

end QuantityCalculus
