/-
  FuzzyPath — the order of results.

  * a `Ranked` result is a candidate's place in the caller's list with its
    score and its matched byte offsets;
  * `rankOrder` puts the higher score first and, of two of one score, the
    candidate that comes first in the list.
-/
namespace FuzzyPath

/-- A result. -/
structure Ranked where
  score : Int
  /-- The place of the candidate in the caller's list. -/
  index : Nat
  /-- The matched byte offsets. -/
  positions : List Nat
  deriving DecidableEq, Repr

/-- The order of results, by score and index: the best is the least. -/
def rankOrder (scoreA : Int) (indexA : Nat) (scoreB : Int) (indexB : Nat) : Ordering :=
  (compare scoreB scoreA).then (compare indexA indexB)

namespace Ranked

/-- The order of two results. -/
def order (a b : Ranked) : Ordering := rankOrder a.score a.index b.score b.index

/-- Whether `a` ranks below `b`. -/
def isWorse (a b : Ranked) : Bool := a.order b == .gt

/-- Results in rank order; of two with the same score and index the one that
    came first stays first. -/
def sort (results : List Ranked) : List Ranked := results.mergeSort fun a b => !a.isWorse b

end Ranked

end FuzzyPath
