/-
  FuzzyPath — runs of matched characters.

  A matched byte offset stands for the whole character that it lies in.
  Characters that touch are joined to one run.

  * `matchedRuns` are the runs of a list of matched offsets.
-/
import FuzzyPath.Text.Span

namespace FuzzyPath

/-- The span of the character of `item` that the byte at `pos` belongs to. -/
def characterAt (item : String) (pos : Nat) : Span :=
  let start := floorBoundary item pos
  ⟨start, ceilBoundary item (start + 1)⟩

/-- Joins a span to the last of some runs, if it touches it or begins before
    its end, and makes it a new run otherwise.  The runs stand last first. -/
def joinRun (span : Span) : List Span → List Span
  | [] => [span]
  | run :: runs =>
    if span.start ≤ run.stop then ⟨run.start, max run.stop span.stop⟩ :: runs
    else span :: run :: runs

/-- The runs, last first, with the character at `pos`; an offset beyond the
    text stands for no character. -/
def addPosition (item : String) (runs : List Span) (pos : Nat) : List Span :=
  if pos < item.utf8ByteSize then joinRun (characterAt item pos) runs else runs

/-- The runs of the characters of `item` that some byte offsets lie in. -/
def matchedRuns (item : String) (positions : List Nat) : List Span :=
  (positions.foldl (addPosition item) []).reverse

end FuzzyPath
