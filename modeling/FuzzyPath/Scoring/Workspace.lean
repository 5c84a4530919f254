/-
  FuzzyPath — scoring in memory that is used again.

  A scorer that is given many candidates keeps what it computes for each in the
  same arrays.  They are filled anew at different points, so that a candidate
  that is dropped early leaves some of them as the one before has left them;
  only the path is emptied for every candidate.

  * a `Workspace` holds the units of a candidate and what a match on each earns,
    and the buffers of the alignment;
  * `Scorer.prepareIn` fills it for a candidate, `Scorer.scoreIn` scores a
    candidate in it, and `Workspace.positions` gives the byte offsets matched;
  * `Scorer.answersIn` are the answers to candidates in a row, in one workspace,
    and `Scorer.answers` those of a scorer that keeps no more than it has to.
-/
import FuzzyPath.Alignment.Buffers
import FuzzyPath.Scoring.Scorer

namespace FuzzyPath

/-- What a scorer keeps from one candidate to the next. -/
structure Workspace where
  /-- The units of the window. -/
  units : Array TextUnit
  /-- What a match on each unit earns for where it stands. -/
  bonus : Array Int
  /-- Whether each unit is a path separator. -/
  separator : Array Bool
  alignment : Alignment.Buffers

namespace Workspace

/-- The workspace before the first candidate. -/
def empty : Workspace := ⟨#[], #[], #[], .empty⟩

/-- The units with what belongs to them. -/
def columns (w : Workspace) : Array Alignment.Column :=
  (w.units.zip (w.bonus.zip w.separator)).map fun (unit, bonus, isSeparator) =>
    ⟨unit, bonus, isSeparator⟩

/-- The workspace when the next candidate is to be scored. -/
def idle (w : Workspace) : Workspace := { w with alignment.path := #[] }

/-- The byte offsets matched by the candidate scored last. -/
def positions (w : Workspace) : Except Fault (List Nat) :=
  w.alignment.path.toList.mapM fun j => (fetch w.units j).map (·.offset)

end Workspace

/-- What is told about a candidate: its score, and then the byte offsets matched. -/
structure Answer where
  score : Option Int
  positions : List Nat
  deriving DecidableEq, Repr

namespace Scorer

/-- Appends what a match on each of some units earns, and whether it is a
    separator.  `prev` is the class of the character before them. -/
def pushUnits (s : Scorer) (filename : Option Span) (prev : Option CharClass)
    (bonus : Array Int) (separator : Array Bool) :
    List TextUnit → Except Fault (Array Int × Array Bool)
  | [] => .ok (bonus, separator)
  | unit :: units => do
    let cls := classify s.query.textMode s.style? unit.ch
    let start := (s.boundaryBonus (boundary prev cls)).toInt
    let earned ←
      if filename.any (·.contains unit.offset) then add32 start s.weights.filenameBonus.toInt
      else .ok start
    pushUnits s filename (some cls) (bonus.push earned) (separator.push (cls == .separator)) units

/-- The workspace with the units of a candidate's window. -/
def prepareIn (s : Scorer) (w : Workspace) (c : Candidate) (window : Span) :
    Except Fault Workspace := do
  let base := c.keySpan.start
  let units := s.query.textMode.decode (window.slice c.key) (base + window.start)
  let filename := match s.query.keyKind with
    | .path => c.components.getLast?.map (·.shift base)
    | .plain | .filename => none
  let (bonus, separator) ← s.pushUnits filename (s.classBefore c window) #[] #[] units
  return { w with units := units.toArray, bonus, separator }

/-- The score of the candidate whose units are in the workspace, `none` if they do
    not match, and the workspace that keeps the alignment. -/
def matchIn (s : Scorer) (w : Workspace) (c : Candidate) :
    Except Fault (Option Int × Workspace) := do
  let problem : Alignment.Problem :=
    ⟨s.query.units, w.columns, s.query.caseSensitive, .ofWeights s.weights⟩
  let (raw, alignment) ← Alignment.alignIn problem w.alignment
  let unmatched := w.units.size - s.query.units.length
  return (raw.map fun raw => s.penalized c (s.adjusted c raw unmatched), { w with alignment })

/-- The score of a candidate, `none` if it does not match, and the workspace that
    it leaves. -/
def scoreIn (s : Scorer) (w : Workspace) (c : Candidate) : Except Fault (Option Int × Workspace) :=
  if s.isExcluded c then .ok (none, w.idle)
  else if s.isCurrent c && !s.context.matchCurrent then .ok (none, w.idle)
  else if s.query.isEmpty then .ok (some (s.penalized c 0), w.idle)
  else
    match s.window c with
    | none => .ok (none, w.idle)
    | some window => do s.matchIn (← s.prepareIn w.idle c window) c

/-- The answer to a candidate, and the workspace that it leaves. -/
def answerIn (s : Scorer) (w : Workspace) (c : Candidate) : Except Fault (Answer × Workspace) := do
  let (score, w) ← s.scoreIn w c
  return (⟨score, ← w.positions⟩, w)

/-- The answers to candidates in a row, in one workspace. -/
def answersIn (s : Scorer) (w : Workspace) : List Candidate → Except Fault (List Answer)
  | [] => .ok []
  | c :: cs => do
    let (a, w) ← s.answerIn w c
    return a :: (← answersIn s w cs)

/-- The answer to a candidate, and the scorer after it. -/
def answer (s : Scorer) (c : Candidate) : Except Fault (Answer × Scorer) := do
  let (score, s) ← s.score c
  return (⟨score, ← s.positions⟩, s)

/-- The answers to candidates in a row, by one scorer. -/
def answers (s : Scorer) : List Candidate → Except Fault (List Answer)
  | [] => .ok []
  | c :: cs => do
    let (a, s) ← s.answer c
    return a :: (← answers s cs)

end Scorer

end FuzzyPath
