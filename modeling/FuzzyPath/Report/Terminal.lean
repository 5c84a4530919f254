/-
  FuzzyPath — results on a terminal.

  Each result is its line with the runs of matched characters in a colour of
  their own; on demand a second line gives the score and the matched offsets.

  * `reportEvents` says what is written and where the colour changes;
  * `TerminalEvent.text` turns the colour changes into control sequences, or
    leaves them out;
  * `reportText` is both together.
-/
import FuzzyPath.Highlight.Runs
import FuzzyPath.Ranking.Ranked

namespace FuzzyPath

/-- The colours of a report. -/
inductive Tint where
  /-- Bold red, for matched characters. -/
  | matched
  /-- Cyan, for the details of a result. -/
  | detail
  deriving DecidableEq, Repr

/-- The control sequence that takes back all colours. -/
def resetSequence : String := "\x1b[0m"

/-- The control sequences that set a colour and nothing else. -/
def Tint.sequence : Tint → String
  | matched => resetSequence ++ "\x1b[1m\x1b[31m"
  | detail => resetSequence ++ "\x1b[36m"

/-- What happens on a terminal. -/
inductive TerminalEvent where
  | write (text : String)
  | setTint (tint : Tint)
  | reset
  deriving DecidableEq, Repr

/-- What is sent to a terminal; without `coloured` only the text. -/
def TerminalEvent.text (coloured : Bool) : TerminalEvent → String
  | write text => text
  | setTint tint => if coloured then tint.sequence else ""
  | reset => if coloured then resetSequence else ""

/-- The text of `line` between two byte offsets, if there is any. -/
def writePart (line : String) (start stop : Nat) : List TerminalEvent :=
  if start < stop then [.write ((⟨start, stop⟩ : Span).slice line)] else []

/-- The rest of a line, of which all before `written` has been written, with
    the runs `runs` in colour. -/
def lineEventsFrom (line : String) (written : Nat) : List Span → List TerminalEvent
  | [] => writePart line written line.utf8ByteSize ++ [.write "\n"]
  | run :: runs =>
    writePart line written run.start ++
      .setTint .matched :: .write (run.slice line) :: .reset :: lineEventsFrom line run.stop runs

/-- A line with the characters at the matched offsets in colour. -/
def lineEvents (line : String) (positions : List Nat) : List TerminalEvent :=
  lineEventsFrom line 0 (matchedRuns line positions)

/-- The details of a result. -/
def detailText (r : Ranked) : String :=
  s!"  score: {r.score}; index: {r.index}; positions: [" ++
    ", ".intercalate (r.positions.map Nat.repr) ++ "]\n"

/-- A line of its own for the details of a result. -/
def detailEvents (r : Ranked) : List TerminalEvent :=
  [.setTint .detail, .write (detailText r), .reset]

/-- A result; nothing if its index belongs to no line. -/
def resultEvents (items : Array String) (details : Bool) (r : Ranked) : List TerminalEvent :=
  match items[r.index]? with
  | some line => lineEvents line r.positions ++ if details then detailEvents r else []
  | none => []

/-- All results. -/
def reportEvents (items : List String) (results : List Ranked) (details : Bool) :
    List TerminalEvent :=
  let lines := items.toArray
  results.flatMap (resultEvents lines details)

/-- The text of all results. -/
def reportText (items : List String) (results : List Ranked) (details coloured : Bool) : String :=
  String.join ((reportEvents items results details).map (·.text coloured))

end FuzzyPath
