/-
  FuzzyPath — a report without colours is its lines.

  A line is written in pieces: what stands before each run, the run, and what is
  left at the end.  Together they are the line again.

  * `plainText` is what events send to a terminal without colours;
    `plainText_lineEvents`: for a line it is that line;
  * `reportText_plain`: the report without details is the line of each result.
-/
import FuzzyPath.Proofs.Highlight.Cutting
import FuzzyPath.Report.Terminal

namespace FuzzyPath

/-! ## Events -/

/-- What some events send to a terminal that shows no colours. -/
def plainText (events : List TerminalEvent) : String := String.join (events.map (·.text false))

theorem plainText_append (events later : List TerminalEvent) :
    plainText (events ++ later) = plainText events ++ plainText later := by
  rw [plainText, List.map_append, String.join_append]
  rfl

theorem plainText_writePart {line : String} {start stop : Nat}
    (hstart : isBoundary line start = true) (hle : start ≤ stop) :
    plainText (writePart line start stop) = (⟨start, stop⟩ : Span).slice line := by
  rw [writePart]
  split
  · simp [plainText, TerminalEvent.text]
  · obtain rfl : start = stop := by omega
    rw [Span.slice_self hstart]
    rfl

/-- What is left of a line is written whole, however it is cut into runs. -/
theorem plainText_lineEventsFrom (line : String) :
    ∀ {runs : List Span} {written : Nat}, (∀ run ∈ runs, run.IsPiece line) →
      runs.Pairwise (fun earlier later => earlier.stop < later.start) →
      isBoundary line written = true → (∀ run ∈ runs, written ≤ run.start) →
      plainText (lineEventsFrom line written runs) =
        (⟨written, line.utf8ByteSize⟩ : Span).slice line ++ "\n"
  | [], written, _, _, hwritten, _ => by
    have hle := le_size_of_isBoundary hwritten
    rw [lineEventsFrom, plainText_append, plainText_writePart hwritten hle]
    rfl
  | run :: runs, written, hruns, hapart, hwritten, hbefore => by
    obtain ⟨hrun, hruns⟩ := List.forall_mem_cons.1 hruns
    obtain ⟨hnext, hapart⟩ := List.pairwise_cons.1 hapart
    have hle := hbefore run List.mem_cons_self
    have hstop := Nat.le_of_lt hrun.nonempty
    have hrest := plainText_lineEventsFrom line hruns hapart hrun.stop fun later hlater =>
      Nat.le_of_lt (hnext later hlater)
    have htinted : plainText (.setTint .matched :: .write (run.slice line) :: .reset ::
        lineEventsFrom line run.stop runs) =
          run.slice line ++ plainText (lineEventsFrom line run.stop runs) := by
      simp [plainText, TerminalEvent.text]
    rw [lineEventsFrom, plainText_append, plainText_writePart hwritten hle, htinted, hrest,
      ← String.append_assoc, ← String.append_assoc,
      Span.slice_append_slice hwritten hrun.start hrun.stop hle hstop,
      Span.slice_append_slice hwritten hrun.stop (isBoundary_size line) (Nat.le_trans hle hstop)
        (le_size_of_isBoundary hrun.stop)]

/-- A line without its colours is the line. -/
theorem plainText_lineEvents (line : String) (positions : List Nat) :
    plainText (lineEvents line positions) = line ++ "\n" := by
  obtain ⟨hruns, hapart⟩ := separate_matchedRuns line positions
  rw [lineEvents, plainText_lineEventsFrom line hruns hapart (isBoundary_zero line)
    fun _ _ => Nat.zero_le _, Span.slice_all]

/-! ## Reports -/

/-- Without details and colours, a report is the line of each result that has one,
    in the order of the results. -/
theorem reportText_plain (items : List String) (results : List Ranked) :
    reportText items results false false =
      String.join ((results.filterMap fun r => items[r.index]?).map (· ++ "\n")) := by
  change plainText (reportEvents items results false) = _
  induction results with
  | nil => rfl
  | cons r results ih =>
    have hcons : reportEvents items (r :: results) false =
        resultEvents items.toArray false r ++ reportEvents items results false := List.flatMap_cons
    rw [hcons, plainText_append, ih, resultEvents, List.getElem?_toArray]
    cases hline : items[r.index]? with
    | none =>
      simp only [List.filterMap_cons, hline]
      exact String.empty_append
    | some line =>
      simp only [List.filterMap_cons, hline, List.map_cons, String.join_cons]
      simp [plainText_lineEvents]

end FuzzyPath
