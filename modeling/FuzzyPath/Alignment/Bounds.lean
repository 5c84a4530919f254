/-
  FuzzyPath — between which columns a query unit can lie.

  * `earliest` puts each query unit on the first column left for it, and
    `latest` each on the last one, both from the outside in;
  * the one exists exactly when some alignment does, and with it the other.
-/
import FuzzyPath.Alignment.Problem

namespace FuzzyPath.Alignment

/-- Puts each query unit on the first matching column after that of the unit
    before it.  `j` is the number of the next column, and `found` are the
    columns given out so far, last first. -/
def earliestFrom (accepts : TextUnit → Column → Bool) (found : List Nat) (j : Nat) :
    List TextUnit → List Column → Option (List Nat)
  | [], _ => some found.reverse
  | _ :: _, [] => none
  | q :: qs, c :: cs =>
    if accepts q c then earliestFrom accepts (j :: found) (j + 1) qs cs
    else earliestFrom accepts found (j + 1) (q :: qs) cs

/-- The earliest column of each query unit. -/
def earliest (accepts : TextUnit → Column → Bool) (query : List TextUnit)
    (columns : List Column) : Option (List Nat) :=
  earliestFrom accepts [] 0 query columns

/-- The latest column of each query unit: the earliest ones, seen from the
    other end. -/
def latest (accepts : TextUnit → Column → Bool) (query : List TextUnit)
    (columns : List Column) : Option (List Nat) :=
  (earliest accepts query.reverse columns.reverse).map fun found =>
    (found.map (columns.length - 1 - ·)).reverse

/-- The number of columns from the first that an alignment can use to the last
    one. -/
def width (first last : List Nat) : Nat := last.getLastD 0 - first.headD 0 + 1

end FuzzyPath.Alignment
