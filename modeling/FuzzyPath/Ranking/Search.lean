/-
  FuzzyPath — running a query over a list of lines.

  Long lists are cut into parts that are scanned on their own, each with a
  scorer and a top-k structure of its own, and the parts' results are merged.
  Neither the parts nor the number of workers can be seen in the result.

  * `mergeRanked` brings the results of the parts together;
  * `Search.workerCount` is the number of workers for a list, `Search.ScansWhole`
    says that there is no need of them, and `Search.parts` are the parts they scan;
  * `Search.run` gives the best results, best first, once the workers are there, and
    `Search.execute` starts them before.
-/
import FuzzyPath.Ranking.TopK
import FuzzyPath.Scoring.Scorer

namespace FuzzyPath

/-- The results of several parts in rank order, at most `limit` of them unless
    it is zero. -/
def mergeRanked (partials : List TopK) (limit : Nat) : List Ranked :=
  let all := Ranked.sort (partials.flatMap TopK.toList)
  if limit = 0 then all else all.take limit

/-- The number of lines below which there is a single part, unless the caller
    says otherwise. -/
def defaultParallelThreshold : Nat := 2048

/-- A query with all that is needed to run it. -/
structure Search where
  query : Query
  weights : Weights
  context : EditorContext
  /-- The greatest number of results; zero for all. -/
  limit : Nat
  /-- The greatest number of workers; zero for as many as the hardware has. -/
  maxThreads : Nat
  /-- The number of lines below which there is a single part. -/
  parallelThreshold : Nat

/-- `items` in parts of `size` elements, the last of which may be shorter. -/
def partsOf {α : Type} (size : Nat) (items : List α) : List (List α) :=
  if 0 < size ∧ 0 < items.length then items.take size :: partsOf size (items.drop size) else []
termination_by items.length
decreasing_by simp; omega

/-- Parts with the place of their first element; the first begins at `base`. -/
def withBases {α : Type} (base : Nat) : List (List α) → List (Nat × List α)
  | [] => []
  | part :: parts => (base, part) :: withBases (base + part.length) parts

namespace Search

/-- The number of workers for `candidates` lines on hardware that runs
    `hardware` threads. -/
def workerCount (s : Search) (hardware candidates : Nat) : Nat :=
  let configured := if s.maxThreads = 0 then hardware else min s.maxThreads hardware
  max (min configured candidates) 1

/-- Whether `candidates` lines are scanned as a whole, without workers. -/
def ScansWhole (s : Search) (hardware candidates : Nat) : Prop :=
  s.workerCount hardware candidates ≤ 1 ∨ candidates < s.parallelThreshold

instance (s : Search) (hardware candidates : Nat) : Decidable (s.ScansWhole hardware candidates) :=
  inferInstanceAs (Decidable (_ ∨ _))

/-- The parts of a list, each with the place where it begins. -/
def parts (s : Search) (hardware : Nat) (items : List String) : List (Nat × List String) :=
  let workers := s.workerCount hardware items.length
  if s.ScansWhole hardware items.length then [(0, items)]
  else withBases 0 (partsOf ((items.length + workers - 1) / workers) items)

/-- Scans lines, the first of which has the place `index`. -/
def scan (s : Search) (scorer : Scorer) (top : TopK) (index : Nat) :
    List String → Except Fault TopK
  | [] => .ok top
  | line :: lines =>
    match scorer.score (.ofLine index line s.query.matchMode s.context.style) with
    | .error fault => .error fault
    | .ok (none, scorer) => scan s scorer top (index + 1) lines
    | .ok (some score, scorer) =>
      match top.insertWith score index
        (fun buffer => scorer.positions.map (buffer ++ ·)) with
      | .error fault => .error fault
      | .ok (_, top) => scan s scorer top (index + 1) lines

/-- The results of one part. -/
def scanPart (s : Search) (part : Nat × List String) : Except Fault TopK :=
  s.scan (Scorer.new s.query s.weights s.context) (TopK.withExpected s.limit part.2.length) part.1
    part.2

/-- The best results, best first, of a search whose workers are there. -/
def run (s : Search) (hardware : Nat) (items : List String) : Except Fault (List Ranked) :=
  if items.isEmpty then .ok []
  else do
    let partials ← (s.parts hardware items).mapM s.scanPart
    return mergeRanked partials s.limit

/-- The best results, where `start` starts as many workers as it is told to. -/
def execute (s : Search) (start : Nat → Except WorkerError Unit) (hardware : Nat)
    (items : List String) : Except WorkerError (Except Fault (List Ranked)) := do
  if ¬ s.ScansWhole hardware items.length then
    start (s.workerCount hardware items.length)
  return s.run hardware items

end Search

end FuzzyPath
