import QuantityCalculus.Evaluation

namespace QuantityCalculus

/-!
Plots of expressions over one variable, drawn with characters.

The expressions are evaluated at evenly spaced values of the variable.  Values
that are not finite or too large are left out; the others share one grid whose
top row shows the greatest value, whose bottom row shows the least, and whose
columns run from the first value of the variable to the last.  Axes are drawn
first and marks over them, later marks over earlier ones.
-/

namespace Plot

variable {R : Type} [Scalar R]

def rows : Nat := 20
def columns : Nat := 60

/-- How many samples are taken unless asked otherwise. -/
def defaultPoints : Nat := 200

/-- The marks of the series, in turn. -/
def seriesMarks : List Char := ['*', 'o', 'x', '#', '@']

/-- A sample that can be drawn: finite, and of a magnitude below ten to the tenth. -/
def isDrawable (y : R) : Bool :=
  Scalar.isFinite y && Scalar.lt (Scalar.abs y) (Scalar.tenTo 10)

/-- The least or the greatest of some values, by what counts as better. -/
def best (better : R -> R -> Bool) (first : R) (rest : List R) : R :=
  rest.foldl (fun found value => if better value found then value else found) first

/-- The distance between two bounds, one if they are the same. -/
def span (low high : R) : R :=
  if Scalar.eq high low then Scalar.ofInt 1 else Scalar.sub high low

/-- Where a part of a span falls on a line of `count` cells, before it is kept on the line. -/
def place (part whole : R) (count : Nat) : Int :=
  Scalar.truncate (Scalar.mul (Scalar.div part whole) (Scalar.ofInt (count - 1 : Nat)))

/-- A place kept on a line of `count` cells. -/
def clamp (count : Nat) (place : Int) : Nat :=
  (max 0 (min ((count : Int) - 1) place)).toNat

/-- A character in a cell, by row and column. -/
structure Mark where
  row : Nat
  column : Nat
  sign : Char
deriving DecidableEq, Repr

/-- The bounds of what is drawn. -/
structure Frame (R : Type) where
  left : R
  right : R
  bottom : R
  top : R

namespace Frame

/-- The place of a value in its row direction, counted downwards from the top. -/
def rowPlace (frame : Frame R) (y : R) : Int :=
  place (Scalar.sub frame.top y) (span frame.bottom frame.top) rows

/-- The place of a value of the variable. -/
def columnPlace (frame : Frame R) (x : R) : Int :=
  place (Scalar.sub x frame.left) (span frame.left frame.right) columns

/-- Zero lies between two bounds. -/
def holdsZero (low high : R) : Bool :=
  Scalar.le low (Scalar.ofInt 0) && Scalar.le (Scalar.ofInt 0) high

/-- The place of the horizontal axis, if zero is among the values. -/
def axisRow? (frame : Frame R) : Option Int :=
  if holdsZero frame.bottom frame.top then some (frame.rowPlace (Scalar.ofInt 0)) else none

/-- The place of the vertical axis, if zero is among the values of the variable. -/
def axisColumn? (frame : Frame R) : Option Int :=
  if holdsZero frame.left frame.right then some (frame.columnPlace (Scalar.ofInt 0)) else none

/-- What a cell shows where nothing is drawn. -/
def background (frame : Frame R) (row column : Nat) : Char :=
  let onRow := frame.axisRow? == some (row : Int)
  let onColumn := frame.axisColumn? == some (column : Int)
  if onRow && onColumn then '+' else if onRow then '-' else if onColumn then '|' else ' '

/-- The mark of one sample. -/
def mark (frame : Frame R) (sign : Char) (x y : R) : Mark :=
  ⟨clamp rows (frame.rowPlace y), clamp columns (frame.columnPlace x), sign⟩

/-- The marks of one series, in order. -/
def seriesMarks (frame : Frame R) (sign : Char) (xs ys : List R) : List Mark :=
  ((xs.zip ys).filter fun sample => isDrawable sample.2).map fun sample =>
    frame.mark sign sample.1 sample.2

/-- The sign of a series by its number. -/
def signOf (number : Nat) : Char :=
  Plot.seriesMarks.getD (number % Plot.seriesMarks.length) '*'

/-- The marks of all series, counted from a number, in order. -/
def marksFrom (frame : Frame R) (xs : List R) : Nat -> List (List R) -> List Mark
  | _, [] => []
  | number, ys :: rest =>
      frame.seriesMarks (signOf number) xs ys ++ frame.marksFrom xs (number + 1) rest

/-- What a cell shows in the end: the last mark in it, or the background. -/
def cell (frame : Frame R) (marks : List Mark) (row column : Nat) : Char :=
  match marks.reverse.find? fun mark => mark.row == row && mark.column == column with
  | some mark => mark.sign
  | none => frame.background row column

/-- The lines of the drawing. -/
def lines (frame : Frame R) (marks : List Mark) : List String :=
  (List.range rows).map fun row =>
    String.ofList ((List.range columns).map fun column => frame.cell marks row column)

end Frame

/-- The frame around the drawable samples of some series, if there are any. -/
def frame? (xs : List R) (series : List (List R)) : Option (Frame R) :=
  match series.flatten.filter isDrawable, xs.head?, xs.getLast? with
  | first :: rest, some left, some right =>
      some ⟨left, right, best Scalar.lt first rest, best (fun a b => Scalar.lt b a) first rest⟩
  | _, _, _ => none

/-- The drawing of some series over the same values, unless there is nothing to draw. -/
def draw? (xs : List R) (series : List (List R)) : Option (List String) :=
  (frame? xs series).map fun frame => frame.lines (frame.marksFrom xs 0 series)

/-- Evenly spaced values between two bounds, both included; a single value is the lower bound. -/
def spaced (low high : R) (points : Nat) : List R :=
  let step := Scalar.div (Scalar.sub high low) (Scalar.ofInt (points - 1 : Nat))
  if points = 1 then [low]
  else (List.range points).map fun i =>
    if i + 1 = points then high else Scalar.add (Scalar.mul (Scalar.ofInt i) step) low

/-- The values of an expression for values of a variable, bound in a scope of its own. -/
def sample (environment : Environment R) (scopes : Scopes R) (scope : ScopeId) (name : String)
    (expr : Expr R) (xs : List R) : Except Failure (List R) :=
  xs.mapM fun x => do
    let (inner, opened) := scopes.openChild scope none
    let y ← evaluate environment (opened.bind inner name (.num x) none) inner expr
    .ok y.base

/-- The drawing of some expressions of one variable. -/
def drawExpressions (environment : Environment R) (scopes : Scopes R) (scope : ScopeId)
    (exprs : List (Expr R)) (name : String) (low high : R) (points : Nat) :
    Except Failure (List String) :=
  if exprs.isEmpty then .error .nothingToPlot
  else if Scalar.le high low then .error .emptyPlotRange
  else do
    let xs := spaced low high (if points = 0 then defaultPoints else points)
    let series ← exprs.mapM fun expr => sample environment scopes scope name expr xs
    match draw? xs series with
    | some lines => .ok ("ASCII plot:" :: lines)
    | none => .error .plotOutOfRange

end Plot
end QuantityCalculus
