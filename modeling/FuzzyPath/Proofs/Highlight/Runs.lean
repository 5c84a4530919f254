/-
  FuzzyPath — runs of matched characters are pieces of the text.

  * `isBoundary_floor` and `isBoundary_ceil`: an offset is rounded to a
    boundary;
  * `Span.IsPiece` says that a span covers whole characters, at least one, and
    `IsPiece.cut` what stands before, in and after it;
  * `Separate` is what holds of the runs at every position, last first;
    `Separate.addPosition` adds a position, and `separate_matchedRuns` is the
    result for all runs;
  * `matchedRuns_ne_nil`: a position in the text gives a run.
-/
import FuzzyPath.Highlight.Runs
import FuzzyPath.Proofs.Text.Offsets

namespace FuzzyPath

/-! ## Boundaries -/

theorem isBoundary_iff {text : String} {offset : Nat} :
    isBoundary text offset = true ↔
      ∃ front back, text = front ++ back ∧ offset = front.utf8ByteSize := by
  rw [isBoundary, String.Pos.Raw.isValid_eq_true_iff, String.Pos.Raw.isValid_iff_exists_append]
  constructor
  · rintro ⟨front, back, rfl, h⟩
    exact ⟨front, back, rfl, congrArg String.Pos.Raw.byteIdx h⟩
  · rintro ⟨front, back, rfl, rfl⟩
    exact ⟨front, back, rfl, rfl⟩

theorem isBoundary_size (text : String) : isBoundary text text.utf8ByteSize = true :=
  isBoundary_iff.2 ⟨text, "", by simp, rfl⟩

theorem boundaryBelow_le (text : String) (offset : Nat) : boundaryBelow text offset ≤ offset := by
  induction offset with
  | zero => exact Nat.le_refl 0
  | succ offset ih => rw [boundaryBelow]; split <;> omega

theorem isBoundary_boundaryBelow (text : String) (offset : Nat) :
    isBoundary text (boundaryBelow text offset) = true := by
  induction offset with
  | zero => exact isBoundary_zero text
  | succ offset ih =>
    rw [boundaryBelow]
    split
    · assumption
    · exact ih

theorem floorBoundary_le (text : String) (offset : Nat) : floorBoundary text offset ≤ offset :=
  Nat.le_trans (boundaryBelow_le text _) (Nat.min_le_left _ _)

theorem isBoundary_floor (text : String) (offset : Nat) :
    isBoundary text (floorBoundary text offset) = true := isBoundary_boundaryBelow text _

theorem le_boundaryAbove (text : String) (offset steps : Nat) :
    offset ≤ boundaryAbove text offset steps := by
  induction steps generalizing offset with
  | zero => exact Nat.le_refl offset
  | succ steps ih =>
    rw [boundaryAbove]
    split
    · exact Nat.le_refl offset
    · exact Nat.le_trans (Nat.le_succ offset) (ih (offset + 1))

/-- The search upwards ends at a boundary if the offset after its steps is one. -/
theorem isBoundary_boundaryAbove {text : String} {offset steps : Nat}
    (h : isBoundary text (offset + steps) = true) :
    isBoundary text (boundaryAbove text offset steps) = true := by
  induction steps generalizing offset with
  | zero => exact h
  | succ steps ih =>
    rw [boundaryAbove]
    split
    · assumption
    · exact ih (by rwa [Nat.add_right_comm])

theorem isBoundary_ceil (text : String) (offset : Nat) :
    isBoundary text (ceilBoundary text offset) = true := by
  refine isBoundary_boundaryAbove ?_
  rw [Nat.add_sub_cancel' (Nat.min_le_right _ _)]
  exact isBoundary_size text

theorem le_ceilBoundary {text : String} {offset : Nat} (h : offset ≤ text.utf8ByteSize) :
    offset ≤ ceilBoundary text offset := by
  rw [ceilBoundary, Nat.min_eq_left h]
  exact le_boundaryAbove text offset _

/-! ## Pieces of a text -/

/-- A span covers whole characters of `text`, at least one. -/
structure Span.IsPiece (text : String) (s : Span) : Prop where
  start : isBoundary text s.start = true
  stop : isBoundary text s.stop = true
  nonempty : s.start < s.stop

namespace Span.IsPiece

/-- What stands before, in and after a piece of a text. -/
theorem cut {text : String} {s : Span} (h : s.IsPiece text) :
    ∃ front piece back, text = front ++ piece ++ back ∧
      s = ⟨front.utf8ByteSize, front.utf8ByteSize + piece.utf8ByteSize⟩ := by
  obtain ⟨start, stop⟩ := s
  obtain ⟨front, rest, rfl, rfl⟩ := isBoundary_iff.1 h.start
  obtain ⟨upto, back, heq, rfl⟩ := isBoundary_iff.1 h.stop
  have hsize := h.nonempty
  have hchars : front.toList ++ rest.toList = upto.toList ++ back.toList := by
    simpa using congrArg String.toList heq
  rcases List.append_eq_append_iff.1 hchars with ⟨piece, hupto, hrest⟩ | ⟨piece, hfront, -⟩
  · obtain rfl : upto = front ++ String.ofList piece := by
      rw [← String.toList_inj, hupto, String.toList_append, String.toList_ofList]
    obtain rfl : rest = String.ofList piece ++ back := by
      rw [← String.toList_inj, hrest, String.toList_append, String.toList_ofList]
    exact ⟨front, String.ofList piece, back, by rw [String.append_assoc],
      by rw [String.utf8ByteSize_append]⟩
  · -- the later boundary cannot stand before the earlier one
    obtain rfl : front = upto ++ String.ofList piece := by
      rw [← String.toList_inj, hfront, String.toList_append, String.toList_ofList]
    exact absurd hsize (by simp [String.utf8ByteSize_append])

/-- From the start of a piece to the end of one that does not end before it. -/
theorem join {text : String} {s t : Span} (hs : s.IsPiece text) (ht : t.IsPiece text)
    (h : s.stop ≤ t.stop) : (⟨s.start, t.stop⟩ : Span).IsPiece text :=
  ⟨hs.start, ht.stop, Nat.lt_of_lt_of_le hs.nonempty h⟩

end Span.IsPiece

theorem isPiece_characterAt {item : String} {pos : Nat} (h : pos < item.utf8ByteSize) :
    (characterAt item pos).IsPiece item where
  start := isBoundary_floor item pos
  stop := isBoundary_ceil item _
  nonempty := by
    have hle : floorBoundary item pos < item.utf8ByteSize :=
      Nat.lt_of_le_of_lt (floorBoundary_le item pos) h
    exact le_ceilBoundary hle

/-! ## Runs -/

/-- The runs, last first, are pieces of `item` with at least one byte between
    any two. -/
structure Separate (item : String) (runs : List Span) : Prop where
  isPiece : ∀ run ∈ runs, run.IsPiece item
  apart : runs.Pairwise fun later earlier => earlier.stop < later.start

theorem Separate.joinRun {item : String} {runs : List Span} {span : Span} (h : Separate item runs)
    (hspan : span.IsPiece item) : Separate item (joinRun span runs) := by
  cases runs with
  | nil => exact ⟨by simpa [FuzzyPath.joinRun] using hspan, by simp [FuzzyPath.joinRun]⟩
  | cons run runs =>
    obtain ⟨hrun, hruns⟩ := List.forall_mem_cons.1 h.isPiece
    obtain ⟨hapart, hrest⟩ := List.pairwise_cons.1 h.apart
    rw [FuzzyPath.joinRun]
    split
    · refine ⟨List.forall_mem_cons.2 ⟨?_, hruns⟩, List.pairwise_cons.2 ⟨hapart, hrest⟩⟩
      rcases Nat.le_total run.stop span.stop with hle | hle
      · rw [Nat.max_eq_right hle]
        exact hrun.join hspan hle
      · rw [Nat.max_eq_left hle]
        exact hrun
    · -- the new run begins after the last one, and so after all of them
      refine ⟨List.forall_mem_cons.2 ⟨hspan, h.isPiece⟩, List.pairwise_cons.2 ⟨?_, h.apart⟩⟩
      refine List.forall_mem_cons.2 ⟨by omega, fun earlier hearlier => ?_⟩
      have := hapart earlier hearlier
      have := hrun.nonempty
      omega

theorem Separate.addPosition {item : String} {runs : List Span} (h : Separate item runs)
    (pos : Nat) : Separate item (addPosition item runs pos) := by
  rw [FuzzyPath.addPosition]
  split
  · exact h.joinRun (isPiece_characterAt ‹_›)
  · exact h

theorem Separate.addPositions {item : String} {runs : List Span} (h : Separate item runs)
    (positions : List Nat) : Separate item (positions.foldl (FuzzyPath.addPosition item) runs) := by
  induction positions generalizing runs with
  | nil => exact h
  | cons pos positions ih => exact ih (h.addPosition pos)

/-- The runs of any positions are pieces of the text, from left to right, with at
    least one byte between neighbours. -/
theorem separate_matchedRuns (item : String) (positions : List Nat) :
    (∀ run ∈ matchedRuns item positions, run.IsPiece item) ∧
      (matchedRuns item positions).Pairwise fun earlier later => earlier.stop < later.start := by
  have h : Separate item (positions.foldl (addPosition item) []) :=
    Separate.addPositions ⟨by simp, by simp⟩ positions
  rw [matchedRuns]
  exact ⟨fun run hrun => h.isPiece run (List.mem_reverse.1 hrun), List.pairwise_reverse.2 h.apart⟩

theorem joinRun_ne_nil (span : Span) (runs : List Span) : joinRun span runs ≠ [] := by
  cases runs with
  | nil => simp [joinRun]
  | cons run runs => rw [joinRun]; split <;> simp

theorem addPosition_ne_nil {item : String} {runs : List Span} (pos : Nat) (h : runs ≠ []) :
    addPosition item runs pos ≠ [] := by
  rw [addPosition]
  split
  · exact joinRun_ne_nil _ _
  · exact h

theorem foldl_addPosition_ne_nil {item : String} {runs : List Span} (positions : List Nat)
    (h : runs ≠ []) : positions.foldl (addPosition item) runs ≠ [] := by
  induction positions generalizing runs with
  | nil => exact h
  | cons pos positions ih => exact ih (addPosition_ne_nil pos h)

theorem matchedRuns_ne_nil {item : String} {positions : List Nat} {pos : Nat}
    (hmem : pos ∈ positions) (hpos : pos < item.utf8ByteSize) :
    matchedRuns item positions ≠ [] := by
  obtain ⟨early, late, rfl⟩ := List.append_of_mem hmem
  rw [matchedRuns, Ne, List.reverse_eq_nil_iff, List.foldl_append, List.foldl_cons]
  refine foldl_addPosition_ne_nil late ?_
  rw [addPosition, if_pos hpos]
  exact joinRun_ne_nil _ _

end FuzzyPath
