/-
  FuzzyPath — what an alignment of a query is, and what its steps are worth.

  An alignment puts every unit of the query on a column of the candidate, from
  left to right.  Its worth is a sum over the matched columns and over the gaps
  between them, kept within 32 bits: a sum beyond that range stops at its end.

  * a `Column` is a unit of the candidate with what it adds to a match there;
  * `Prices` are the weights an alignment is made of;
  * `Problem` is a query, a row of columns and the prices; `Problem.accepts`
    says which columns a query unit can be put on, and `matchPrice` what it
    earns there.
-/
import FuzzyPath.Error
import FuzzyPath.Text.Units
import FuzzyPath.Weights

namespace FuzzyPath

/-- An integer moved into the 32-bit range. -/
def saturate32 (x : Int) : Int :=
  if x < -2147483648 then -2147483648 else if 2147483647 < x then 2147483647 else x

/-- An integer moved into the 64-bit range. -/
def saturate64 (x : Int) : Int :=
  if x < -9223372036854775808 then -9223372036854775808
  else if 9223372036854775807 < x then 9223372036854775807
  else x

/-- The sum of two numbers that has to fit in 32 bits. -/
def add32 (x y : Int) : Except Fault Int :=
  if -2147483648 ≤ x + y ∧ x + y ≤ 2147483647 then .ok (x + y) else .error .additionOverflow

namespace Alignment

/-- A unit of the candidate, ready to be matched. -/
structure Column where
  unit : TextUnit
  /-- Added to a match on this column for where it stands. -/
  bonus : Int
  /-- Whether the column is a path separator. -/
  isSeparator : Bool
  deriving DecidableEq, Repr

/-- What the steps of an alignment are worth. -/
structure Prices where
  matchBase : Int
  exactCase : Int
  consecutive : Int
  gapOpen : Int
  gapExtend : Int
  componentGap : Int
  deriving DecidableEq, Repr

/-- The prices that the weights set. -/
def Prices.ofWeights (w : Weights) : Prices where
  matchBase := w.matchBase.toInt
  exactCase := w.exactCaseBonus.toInt
  consecutive := w.consecutiveBonus.toInt
  gapOpen := w.gapOpenPenalty.toInt
  gapExtend := w.gapExtendPenalty.toInt
  componentGap := w.componentGapPenalty.toInt

/-- A query to be aligned with the columns of a candidate. -/
structure Problem where
  query : List TextUnit
  columns : Array Column
  caseSensitive : Bool
  prices : Prices

/-- An alignment and what it is worth. -/
structure Solution where
  score : Int
  /-- The column of each query unit, in order. -/
  path : List Nat
  deriving DecidableEq, Repr

/-- Whether a query unit matches a unit of a candidate. -/
def unitMatches (caseSensitive : Bool) (q u : TextUnit) : Bool :=
  if caseSensitive then q.ch == u.ch else q.folded == u.folded

namespace Problem

/-- Whether the query unit `q` can be put on the column `c`. -/
def accepts (p : Problem) (q : TextUnit) (c : Column) : Bool :=
  unitMatches p.caseSensitive q c.unit

/-- What putting `q` on `c` earns. -/
def matchPrice (p : Problem) (q : TextUnit) (c : Column) : Except Fault Int := do
  let base ← add32 p.prices.matchBase c.bonus
  add32 base (if q.ch == c.unit.ch then p.prices.exactCase else 0)

end Problem

end Alignment

end FuzzyPath
