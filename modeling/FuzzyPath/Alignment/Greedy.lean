/-
  FuzzyPath — an alignment for candidates too long for a table.

  * `greedyPath` ends as early as an alignment can, and is as tight as one
    with that end can be;
  * `price` is the worth of any given path, summed from left to right.
-/
import FuzzyPath.Alignment.Bounds

namespace FuzzyPath.Alignment

/-- The alignment that ends on the earliest column possible, each unit before
    it as late as that allows; `first` are the earliest columns. -/
def greedyPath (p : Problem) (first : List Nat) : List Nat :=
  let final := first.getLastD 0
  (latest p.accepts p.query (p.columns.toList.take (final + 1))).getD first

/-- What the step from the column `prev` to the column `j` adds to `total`. -/
def stepPrice (p : Problem) (total : Int) (prev j : Nat) : Int :=
  let gap := j - prev - 1
  if gap = 0 then saturate32 (total + p.prices.consecutive)
  else
    let extent : Int := min (gap - 1 : Nat) 2147483647
    let crossing :=
      if (p.columns.extract (prev + 1) j).any (·.isSeparator) then p.prices.componentGap else 0
    saturate32 (saturate32 (saturate32 (total - p.prices.gapOpen) -
      saturate32 (extent * p.prices.gapExtend)) - crossing)

/-- The worth of a path whose beginning, up to the column `prev`, is worth
    `total`. -/
def priceFrom (p : Problem) (total : Int) (prev : Option Nat) :
    List TextUnit → List Nat → Except Fault Int
  | q :: query, j :: path =>
    match p.columns[j]? with
    | none => .error (.indexOutOfRange j p.columns.size)
    | some c =>
      match p.matchPrice q c with
      | .error fault => .error fault
      | .ok price =>
        let total := saturate32 (total + price)
        let total := match prev with
          | some prev => stepPrice p total prev j
          | none => total
        priceFrom p total (some j) query path
  | _, _ => .ok total

/-- The worth of a path. -/
def price (p : Problem) (path : List Nat) : Except Fault Int :=
  priceFrom p 0 none p.query path

/-- The greedy alignment and its worth. -/
def greedy (p : Problem) (first : List Nat) : Except Fault Solution := do
  let path := greedyPath p first
  return ⟨← price p path, path⟩

end FuzzyPath.Alignment
