/-
  FuzzyPath — aligning a query with a candidate.

  * `solve` finds the bounds of the query units and then the best alignment by
    a table, or the greedy one if the table would be too large.
-/
import FuzzyPath.Alignment.Table
import FuzzyPath.Alignment.Greedy

namespace FuzzyPath.Alignment

/-- The largest number of cells of a table. -/
def maxCells : Nat := 1048576

/-- An alignment of the query; `none` if there is none. -/
def solve (p : Problem) : Except Fault (Option Solution) :=
  if p.columns.size < p.query.length then .ok none
  else
    match earliest p.accepts p.query p.columns.toList,
      latest p.accepts p.query p.columns.toList with
    | some first, some last =>
      if p.query.length * width first last > maxCells then (greedy p first).map some
      else (best p first last).map some
    | _, _ => .ok none

end FuzzyPath.Alignment
