import QuantityCalculus.Table
import QuantityCalculus.Term.Function
import QuantityCalculus.Text.Ordering

namespace QuantityCalculus
namespace Term

/-!
Replacing a symbol by a term.

The term is built anew from its parts, so the result is in normal form again.
Several symbols are replaced one after the other in the order of their names,
so a replacement also reaches what earlier ones have put in.
-/

/-- A term with a term in the place of a symbol. -/
def replace (term : Term) (name : String) (replacement : Term) : Term :=
  match term with
  | .symbol other => if other = name then replacement else .symbol other
  | .plus a b => sum [a.replace name replacement, b.replace name replacement]
  | .times a b => product [a.replace name replacement, b.replace name replacement]
  | .power a b => raise (a.replace name replacement) (b.replace name replacement)
  | .apply function a => applied function (a.replace name replacement)
  | .remainder a b => modulo (a.replace name replacement) (b.replace name replacement)
  | term => term

/-- A list with the member at a place moved to the front. -/
def moveToFront {α : Type} (members : List α) (place : Nat) : List α :=
  match members[place]? with
  | some chosen => chosen :: members.eraseIdx place
  | none => members

/-- The places of the replacements that are not finite, the last one first. -/
def infinitePlaces (replacements : List (String × Term)) : List Nat :=
  (replacements.zipIdx.filter fun entry => !entry.1.2.isFinite).reverse.map Prod.snd

/--
A term with terms in the place of several symbols.  Replacements that are not
finite are moved to the front one by one, each found at the place that it had
at first.
-/
def replaceAll (replacements : Table Term) (term : Term) : Term :=
  let inOrder := Text.sortedBy Prod.fst replacements
  ((infinitePlaces inOrder).foldl moveToFront inOrder).foldl
    (fun term entry => term.replace entry.1 entry.2) term

end Term
end QuantityCalculus
