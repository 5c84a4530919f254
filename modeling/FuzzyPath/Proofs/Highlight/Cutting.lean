/-
  FuzzyPath — runs can be cut out of their text.

  A text can be cut only between two of its boundaries.  The functions here do
  what those without a question mark do, but have no result if some cut is not
  possible.

  * `Span.slice?_eq_some`: a span between two boundaries can be cut out;
  * `highlightPattern?` and `lineEvents?` are the highlight pattern and what is
    written of a line, made of cuts that have to be possible;
  * `highlightPattern?_eq` and `lineEvents?_eq`: they always are.
-/
import FuzzyPath.Highlight.Pattern
import FuzzyPath.Report.Terminal
import FuzzyPath.Proofs.Highlight.Shown

namespace FuzzyPath

/-! ## Cuts -/

theorem le_size_of_isBoundary {text : String} {offset : Nat} (h : isBoundary text offset = true) :
    offset ≤ text.utf8ByteSize := by
  obtain ⟨front, back, rfl, rfl⟩ := isBoundary_iff.1 h
  rw [String.utf8ByteSize_append]
  exact Nat.le_add_right _ _

namespace Span

/-- What stands before a span, in it and after it. -/
def cut? (s : Span) (text : String) : Option (String × String × String) := do
  let front ← (⟨0, s.start⟩ : Span).slice? text
  let piece ← s.slice? text
  let back ← (⟨s.stop, text.utf8ByteSize⟩ : Span).slice? text
  return (front, piece, back)

variable {text : String} {s : Span}

theorem slice?_eq_some (hle : s.start ≤ s.stop) (hstart : isBoundary text s.start = true)
    (hstop : isBoundary text s.stop = true) : s.slice? text = some (s.slice text) := by
  rw [slice, slice?, if_pos hle, dif_pos hstart, dif_pos hstop]
  rfl

theorem IsPiece.slice?_eq (h : s.IsPiece text) : s.slice? text = some (s.slice text) :=
  slice?_eq_some (Nat.le_of_lt h.nonempty) h.start h.stop

theorem IsPiece.cut?_eq (h : s.IsPiece text) : s.cut? text =
    some ((⟨0, s.start⟩ : Span).slice text, s.slice text,
      (⟨s.stop, text.utf8ByteSize⟩ : Span).slice text) := by
  have hfront := slice?_eq_some (s := ⟨0, s.start⟩) (Nat.zero_le _) (isBoundary_zero text) h.start
  have hback := slice?_eq_some (s := ⟨s.stop, text.utf8ByteSize⟩) (le_size_of_isBoundary h.stop)
    h.stop (isBoundary_size text)
  rw [cut?, hfront, h.slice?_eq, hback]
  rfl

end Span

/-! ## Highlight patterns -/

namespace Pattern

/-- The row that bounds the match, if the item can be cut there. -/
def bounded? (lead item : String) (shown : Span) : Option (List Piece) :=
  (shown.cut? item).map fun (front, text, back) =>
    let atoms : List Atom :=
      [.lineStart] ++ literals lead ++ literals front ++ [.matchStart] ++ literals text ++
        [.matchEnd] ++ literals back ++ [.lineEnd]
    atoms.map .atom

/-- The row for a run, if the item can be cut there. -/
def surrounded? (lead item : String) (run : Span) : Option (List Piece) :=
  (run.cut? item).map fun (front, text, back) =>
    [.behind ([.lineStart] ++ literals lead ++ literals front)] ++ (literals text).map .atom ++
      [.ahead (literals back ++ [.lineEnd])]

/-- The pattern for some runs, if the item can be cut at all of them; the inner
    result is `none` if nothing is shown. -/
def ofRuns? (mode : HighlightMode) (lead item : String) (runs : List Span) :
    Option (Option Pattern) :=
  match mode, runs with
  | .none, _ | _, [] => some none
  | .basic, first :: rest =>
    (bounded? lead item ⟨first.start, (rest.getLastD first).stop⟩).map fun row => some ⟨[row]⟩
  | .full, runs => (runs.mapM (surrounded? lead item)).map fun rows => some ⟨rows⟩

variable {item : String} {s : Span}

theorem bounded?_eq (lead : String) (h : s.IsPiece item) :
    bounded? lead item s = some (bounded lead item s) := by
  rw [bounded?, h.cut?_eq]
  rfl

theorem surrounded?_eq (lead : String) (h : s.IsPiece item) :
    surrounded? lead item s = some (surrounded lead item s) := by
  rw [surrounded?, h.cut?_eq]
  rfl

theorem mapM_surrounded?_eq (lead : String) {runs : List Span}
    (hruns : ∀ run ∈ runs, run.IsPiece item) :
    runs.mapM (surrounded? lead item) = some (runs.map (surrounded lead item)) := by
  induction runs with
  | nil => rfl
  | cons run runs ih =>
    obtain ⟨hrun, hruns⟩ := List.forall_mem_cons.1 hruns
    rw [List.mapM_cons, surrounded?_eq lead hrun, ih hruns]
    rfl

theorem ofRuns?_eq (mode : HighlightMode) (lead : String) {runs : List Span}
    (hruns : ∀ run ∈ runs, run.IsPiece item)
    (hapart : runs.Pairwise fun earlier later => earlier.stop < later.start) :
    ofRuns? mode lead item runs = some (ofRuns mode lead item runs) := by
  cases mode with
  | none => rfl
  | basic =>
    cases runs with
    | nil => rfl
    | cons first rest =>
      rw [ofRuns?, bounded?_eq lead (isPiece_whole hruns hapart)]
      rfl
  | full =>
    cases runs with
    | nil => rfl
    | cons first rest =>
      simp only [ofRuns?, mapM_surrounded?_eq lead hruns]
      rfl

end Pattern

/-- The highlight pattern, if the item can be cut at the runs. -/
def highlightPattern? (mode : HighlightMode) (item : String) (positions : List Nat)
    (lead : String) : Option String :=
  (Pattern.ofRuns? mode lead item (matchedRuns item positions)).map fun pattern? =>
    (pattern?.map Pattern.text).getD ""

theorem highlightPattern?_eq (mode : HighlightMode) (item : String) (positions : List Nat)
    (lead : String) :
    highlightPattern? mode item positions lead =
      some (highlightPattern mode item positions lead) := by
  obtain ⟨hruns, hapart⟩ := separate_matchedRuns item positions
  rw [highlightPattern?, Pattern.ofRuns?_eq mode lead hruns hapart]
  rfl

/-! ## Lines on a terminal -/

/-- What is written of a line between two offsets, if it can be cut there. -/
def writePart? (line : String) (start stop : Nat) : Option (List TerminalEvent) :=
  if start < stop then ((⟨start, stop⟩ : Span).slice? line).map fun text => [.write text]
  else some []

/-- What is written of the rest of a line, if it can be cut at the runs. -/
def lineEventsFrom? (line : String) (written : Nat) : List Span → Option (List TerminalEvent)
  | [] => (writePart? line written line.utf8ByteSize).map (· ++ [.write "\n"])
  | run :: runs => do
    let between ← writePart? line written run.start
    let text ← run.slice? line
    let others ← lineEventsFrom? line run.stop runs
    return between ++ .setTint .matched :: .write text :: .reset :: others

/-- What is written of a line, if it can be cut at the runs. -/
def lineEvents? (line : String) (positions : List Nat) : Option (List TerminalEvent) :=
  lineEventsFrom? line 0 (matchedRuns line positions)

theorem writePart?_eq {line : String} {start stop : Nat} (hstart : isBoundary line start = true)
    (hstop : isBoundary line stop = true) :
    writePart? line start stop = some (writePart line start stop) := by
  rw [writePart?, writePart]
  split
  · rw [Span.slice?_eq_some (Nat.le_of_lt ‹_›) hstart hstop]
    rfl
  · rfl

theorem lineEventsFrom?_eq {line : String} {runs : List Span} :
    ∀ {written : Nat}, isBoundary line written = true → (∀ run ∈ runs, run.IsPiece line) →
      lineEventsFrom? line written runs = some (lineEventsFrom line written runs) := by
  induction runs with
  | nil =>
    intro written hwritten _
    rw [lineEventsFrom?, writePart?_eq hwritten (isBoundary_size line)]
    rfl
  | cons run runs ih =>
    intro written hwritten hruns
    obtain ⟨hrun, hruns⟩ := List.forall_mem_cons.1 hruns
    rw [lineEventsFrom?, writePart?_eq hwritten hrun.start, hrun.slice?_eq, ih hrun.stop hruns]
    rfl

theorem lineEvents?_eq (line : String) (positions : List Nat) :
    lineEvents? line positions = some (lineEvents line positions) :=
  lineEventsFrom?_eq (isBoundary_zero line) (separate_matchedRuns line positions).1

end FuzzyPath
