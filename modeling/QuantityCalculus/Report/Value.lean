import QuantityCalculus.JsonValue.Basic
import QuantityCalculus.Report

namespace QuantityCalculus

/-!
Reports as JSON values.

A report and a refusal are objects with the same first field, which tells them
apart.  Parts that are not there are left out.
-/

variable {R : Type}

/-- The fields of a refusal. -/
def refusalFields (failure : Failure) : Table (JsonValue R) :=
  [("ok", .truth false), ("error", .string failure.message), ("error_code", .string failure.code)]

/-- A field that may be left out. -/
def optionalField (name : String) (value : Option (JsonValue R)) : Table (JsonValue R) :=
  (value.map fun value => (name, value)).toList

/-- The fields of the report of an evaluation. -/
def EvalReport.fields : Except Failure (EvalReport R) -> Table (JsonValue R)
  | .error failure => refusalFields failure
  | .ok report =>
      [("ok", .truth true), ("result", .string report.result)]
        ++ optionalField "value" (report.value.map .real)
        ++ optionalField "unit" (report.unit.map .string)
        ++ optionalField "free_symbols"
          (report.freeNames.map fun names => .list (names.map .string))

/-- The fields of the report of a solution for a target. -/
def SolveReport.fields (target : String) : Except Failure SolveReport -> Table (JsonValue R)
  | .error failure => ("target", .string target) :: refusalFields failure
  | .ok report =>
      [("ok", .truth true), ("target", .string report.target),
       ("expression", .string report.expression), ("latex", .string report.markup)]
        ++ optionalField "verified" (report.verified.map .truth)

end QuantityCalculus
