/-
  FuzzyPath — sets of code points.

  A set is a list of runs `(first, last, step)`, sorted by their first code
  point and not overlapping.

  * `CodePointRun.contains` is membership in one run, `mem` membership in a
    sorted list of runs: the search ends at the first run that begins beyond
    the code point.
-/
namespace FuzzyPath

/-- The code points `first`, `first + step`, … up to `last`. -/
abbrev CodePointRun := Nat × Nat × Nat

/-- Membership in one run. -/
def CodePointRun.contains (run : CodePointRun) (c : Nat) : Bool :=
  run.1 ≤ c && c ≤ run.2.1 && (c - run.1) % run.2.2 == 0

namespace CodePoints

/-- Membership in a list of runs sorted by their first code points. -/
def mem : List CodePointRun → Nat → Bool
  | [], _ => false
  | run :: runs, c => if c < run.1 then false else run.contains c || mem runs c

end CodePoints

end FuzzyPath
