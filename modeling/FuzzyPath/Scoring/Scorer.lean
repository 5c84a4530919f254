/-
  FuzzyPath — the score of a candidate.

  A candidate matches if no excluded text occurs in it, if it may be a result
  at all, and if the units of the query stand in its window in their order.
  Its score is the worth of the best alignment, scaled down by the number of
  units left unmatched, less the distance from the current file, plus the words
  shared with it.

  * `Scorer.window` is the part of the key on which a query can be matched, and
    `columns` its units with their bonuses;
  * `Scorer.score` scores a candidate; the scorer keeps the alignment it found
    until the next call, and `positions` gives the byte offsets matched by it;
  * `Scorer.evaluate` does both.
-/
import FuzzyPath.Alignment.Solve
import FuzzyPath.Query.Parse
import FuzzyPath.Scoring.Candidate
import FuzzyPath.Scoring.SharedWords
import FuzzyPath.Text.CharClass

namespace FuzzyPath

/-- Whether the bytes `needle` occur in a row somewhere in a list of bytes. -/
def occursIn (needle : List UInt8) : List UInt8 → Bool
  | [] => needle.isEmpty
  | b :: bs => needle.isPrefixOf (b :: bs) || occursIn needle bs

/-- The score and the matched byte offsets of a candidate. -/
structure MatchOutcome where
  score : Int
  positions : List Nat
  deriving DecidableEq, Repr

/-- Scores candidates against one query. -/
structure Scorer where
  query : Query
  weights : Weights
  context : EditorContext
  /-- The names of the directories of the current file. -/
  currentDirectories : List String
  /-- The name of the current file; empty if there is none. -/
  currentName : String
  /-- The ends of the words of `currentName`. -/
  currentWordEnds : List Nat
  /-- The columns of the last candidate that was aligned. -/
  columns : Array Alignment.Column
  /-- The columns that the last candidate scored was matched on. -/
  path : List Nat

namespace Scorer

/-- A scorer that has not scored anything. -/
def new (query : Query) (weights : Weights) (context : EditorContext) : Scorer :=
  let current := context.currentFile.getD ""
  let spans := Path.components context.style current
  let name := (spans.getLast?.map (·.slice current)).getD ""
  { query, weights, context
    currentDirectories := spans.dropLast.map (·.slice current)
    currentName := name
    currentWordEnds := wordEnds query.textMode name
    columns := #[]
    path := [] }

/-- Whether an excluded text occurs anywhere in the line. -/
def isExcluded (s : Scorer) (c : Candidate) : Bool :=
  let line := utf8 c.text
  s.query.excluded.any fun text => occursIn (utf8 text) line

/-- Whether the candidate is the file open in the editor. -/
def isCurrent (s : Scorer) (c : Candidate) : Bool := s.context.currentFile == some c.text

/-- The part of the key that query units can be put on, as a span of the key;
    `none` if only the file name is matched and there is none. -/
def window (s : Scorer) (c : Candidate) : Option Span :=
  match s.query.keyKind with
  | .filename => c.components.getLast?
  | .plain | .path => some ⟨0, c.keySpan.length⟩

/-- The path style, if separators have a meaning for the query. -/
def style? (s : Scorer) : Option PathStyle :=
  if s.query.isPathAware then some s.context.style else none

/-- The bonus of a boundary. -/
def boundaryBonus (s : Scorer) : Boundary → Int32
  | .component =>
    if s.style?.isSome then s.weights.componentStartBonus else s.weights.wordStartBonus
  | .word => s.weights.wordStartBonus
  | .camelHump => s.weights.camelCaseBonus
  | .none => 0

/-- The columns of some units.  `prev` is the class of the character before
    them, `filename` the span of the file name if matches there earn a bonus,
    and `done` are the columns before, last first. -/
def columnsFrom (s : Scorer) (filename : Option Span) (prev : Option CharClass)
    (done : List Alignment.Column) : List TextUnit → Except Fault (List Alignment.Column)
  | [] => .ok done.reverse
  | unit :: units =>
    let cls := classify s.query.textMode s.style? unit.ch
    let start := (s.boundaryBonus (boundary prev cls)).toInt
    match (if filename.any (·.contains unit.offset) then
        add32 start s.weights.filenameBonus.toInt
      else .ok start) with
    | .error fault => .error fault
    | .ok bonus =>
      let column : Alignment.Column := ⟨unit, bonus, cls == .separator⟩
      columnsFrom s filename (some cls) (column :: done) units

/-- The class of the character before the window.  It matters only for a file
    name, which follows a separator. -/
def classBefore (s : Scorer) (c : Candidate) (window : Span) : Option CharClass :=
  if window.start = 0 then none
  else ((utf8 c.key)[window.start - 1]?).map fun b =>
    classify s.query.textMode s.style? (Char.ofNat b.toNat)

/-- The columns of a candidate: the units of its window with what a match on
    them earns. -/
def columnsOf (s : Scorer) (c : Candidate) (window : Span) :
    Except Fault (List Alignment.Column) :=
  let base := c.keySpan.start
  let units := s.query.textMode.decode (window.slice c.key) (base + window.start)
  let filename := match s.query.keyKind with
    | .path => c.components.getLast?.map (·.shift base)
    | .plain | .filename => none
  columnsFrom s filename (s.classBefore c window) [] units

/-- Taken off for the distance between the directories of the candidate and of
    the current file. -/
def proximityPenalty (s : Scorer) (c : Candidate) : Int :=
  if s.context.currentFile.isNone ∨ s.query.keyKind ≠ .path then 0
  else
    let distance := directoryDistance c.directoryNames s.currentDirectories
    let steps : Int := min distance s.weights.maxProximityDistance.toNat
    saturate64 (steps * s.weights.proximityPenalty.toInt)

/-- Added for the words that the file names of the candidate and of the current
    file both begin with. -/
def sharedWordBonus (s : Scorer) (c : Candidate) : Int :=
  if s.currentWordEnds.isEmpty ∨ s.query.keyKind ≠ .path then 0
  else
    let shared :=
      sharedLeadingWords s.query.textMode c.filename s.currentName s.currentWordEnds
    saturate64 (shared * s.weights.sharedWordBonus.toInt)

/-- The worth of an alignment, scaled: halved when as many units are unmatched
    as the length scale says. -/
def scaled (lengthScale : Int) (raw : Int) (unmatched : Nat) : Int :=
  let scale := max lengthScale 1
  (saturate64 (saturate64 (max raw 1 * 1000) * scale)).tdiv (saturate64 (scale + unmatched))

/-- The score of an aligned candidate, before the current file's penalty. -/
def adjusted (s : Scorer) (c : Candidate) (raw : Int) (unmatched : Nat) : Int :=
  saturate64 (saturate64 (scaled s.weights.lengthScale.toInt raw unmatched - s.proximityPenalty c) +
    s.sharedWordBonus c)

/-- The score with the penalty that the current file itself gets. -/
def penalized (s : Scorer) (c : Candidate) (score : Int) : Int :=
  if s.isCurrent c then saturate64 (score - s.weights.currentFilePenalty.toInt) else score

/-- The score of a candidate, `none` if it does not match, and the scorer that
    keeps the alignment. -/
def score (s : Scorer) (c : Candidate) : Except Fault (Option Int × Scorer) :=
  let idle := { s with path := [] }
  if s.isExcluded c then .ok (none, idle)
  else if s.isCurrent c && !s.context.matchCurrent then .ok (none, idle)
  else if s.query.isEmpty then .ok (some (s.penalized c 0), idle)
  else
    match s.window c with
    | none => .ok (none, idle)
    | some window => do
      let columns := (← s.columnsOf c window).toArray
      let problem : Alignment.Problem :=
        ⟨s.query.units, columns, s.query.caseSensitive, .ofWeights s.weights⟩
      match ← Alignment.solve problem with
      | none => return (none, { s with columns, path := [] })
      | some solution =>
        let unmatched := columns.size - s.query.units.length
        return (some (s.penalized c (s.adjusted c solution.score unmatched)),
          { s with columns, path := solution.path })

/-- The byte offset of a column. -/
def offsetOf (columns : Array Alignment.Column) (j : Nat) : Except Fault Nat :=
  match columns[j]? with
  | some column => .ok column.unit.offset
  | none => .error (.indexOutOfRange j columns.size)

/-- The byte offsets matched by the candidate scored last. -/
def positions (s : Scorer) : Except Fault (List Nat) := s.path.mapM (offsetOf s.columns)

/-- The score and the positions of a candidate. -/
def evaluate (s : Scorer) (c : Candidate) : Except Fault (Option MatchOutcome × Scorer) := do
  match ← s.score c with
  | (none, s) => return (none, s)
  | (some score, s) => return (some ⟨score, ← s.positions⟩, s)

end Scorer

end FuzzyPath
