/-
  FuzzyPath — runs of matched characters cover what is matched, and no more.

  A run joins characters that touch or stand in a row.  As long as the matched
  offsets come from left to right, each of their characters gets into a run, and
  nothing else does.  An offset that comes after one to its right, both in the
  text, adds nothing to the runs.

  * `Span.IsCharacter` says which spans are those of single characters, and
    `characterAt_eq_iff` that each byte of a text belongs to one of them;
  * `Covers` says that a byte is in some run, and `covers_joinRun` what one more
    span adds;
  * `matchedRuns_exact`: the runs are pieces of the text with bytes between
    them, all that is cut out at them can be cut out, and the runs of sorted
    offsets cover the bytes of the characters with an offset.
-/
import FuzzyPath.Proofs.Highlight.Cutting

namespace FuzzyPath

/-! ## Characters of a text -/

/-- A span is that of one character. -/
def Span.IsCharacter (item : String) (s : Span) : Prop :=
  ∃ front c back, item = front ++ String.singleton c ++ back ∧
    s = ⟨front.utf8ByteSize, front.utf8ByteSize + c.utf8Size⟩

theorem le_boundaryBelow {text : String} {offset bound : Nat} (h : isBoundary text bound = true)
    (hle : bound ≤ offset) : bound ≤ boundaryBelow text offset := by
  induction offset with
  | zero => exact hle
  | succ offset ih =>
    rw [boundaryBelow]
    split
    · exact hle
    · rename_i hno
      refine ih (Nat.le_of_lt_succ (Nat.lt_of_le_of_ne hle ?_))
      rintro rfl
      exact hno h

theorem boundaryAbove_le {text : String} {bound steps : Nat} (h : isBoundary text bound = true) :
    ∀ {offset : Nat}, offset ≤ bound → boundaryAbove text offset steps ≤ bound := by
  induction steps with
  | zero => exact id
  | succ steps ih =>
    intro offset hle
    rw [boundaryAbove]
    split
    · exact hle
    · rename_i hno
      refine ih (Nat.succ_le_of_lt (Nat.lt_of_le_of_ne hle ?_))
      rintro rfl
      exact hno h

/-- No boundary lies within a character. -/
theorem not_isBoundary_within {front back : String} {c : Char} {offset : Nat}
    (h : isBoundary (front ++ String.singleton c ++ back) offset = true)
    (hstart : front.utf8ByteSize < offset) : front.utf8ByteSize + c.utf8Size ≤ offset := by
  obtain ⟨front', back', heq, rfl⟩ := isBoundary_iff.1 h
  have hchars : front.toList ++ c :: back.toList = front'.toList ++ back'.toList := by
    simpa using congrArg String.toList heq
  rw [← length_utf8Chars_toList front, ← length_utf8Chars_toList front'] at *
  rcases List.append_eq_append_iff.1 hchars with ⟨piece, hfront', hpiece⟩ | ⟨piece, hfront, -⟩
  · rw [hfront', utf8Chars_append, List.length_append]
    cases piece with
    | nil => simp [hfront'] at hstart
    | cons d piece =>
      obtain ⟨rfl, -⟩ := List.cons.inj hpiece
      rw [length_utf8Chars_cons]
      omega
  · rw [hfront, utf8Chars_append, List.length_append] at hstart
    omega

/-- The character at an offset is the one that has its byte. -/
theorem characterAt_eq {item : String} {s : Span} {pos : Nat} (h : s.IsCharacter item)
    (hpos : s.contains pos = true) : characterAt item pos = s := by
  obtain ⟨front, c, back, rfl, rfl⟩ := h
  obtain ⟨hstart, hstop⟩ := Span.contains_iff.1 hpos
  dsimp only at hstart hstop
  have hfirst : isBoundary (front ++ String.singleton c ++ back) front.utf8ByteSize = true :=
    isBoundary_iff.2 ⟨front, String.singleton c ++ back, String.append_assoc .., rfl⟩
  have hlast : isBoundary (front ++ String.singleton c ++ back)
      (front.utf8ByteSize + c.utf8Size) = true := by
    have := isBoundary_append (front ++ String.singleton c) back
    rwa [String.utf8ByteSize_append, String.utf8ByteSize_singleton] at this
  have hsize := le_size_of_isBoundary hlast
  have hfloor : floorBoundary (front ++ String.singleton c ++ back) pos = front.utf8ByteSize := by
    have hle := floorBoundary_le (front ++ String.singleton c ++ back) pos
    have hge : front.utf8ByteSize ≤ floorBoundary (front ++ String.singleton c ++ back) pos :=
      le_boundaryBelow hfirst (by omega)
    by_contra hne
    have := not_isBoundary_within
      (isBoundary_floor (front ++ String.singleton c ++ back) pos) (by omega)
    omega
  have hceil : ceilBoundary (front ++ String.singleton c ++ back) (front.utf8ByteSize + 1) =
      front.utf8ByteSize + c.utf8Size := by
    have hpositive := c.utf8Size_pos
    have hge : front.utf8ByteSize + 1 ≤
        ceilBoundary (front ++ String.singleton c ++ back) (front.utf8ByteSize + 1) :=
      le_ceilBoundary (by omega)
    have hle : ceilBoundary (front ++ String.singleton c ++ back) (front.utf8ByteSize + 1) ≤
        front.utf8ByteSize + c.utf8Size := boundaryAbove_le hlast (by omega)
    have := not_isBoundary_within
      (isBoundary_ceil (front ++ String.singleton c ++ back) (front.utf8ByteSize + 1)) (by omega)
    omega
  rw [characterAt, hfloor, hceil]

theorem exists_isCharacter {item : String} {pos : Nat} (h : pos < item.utf8ByteSize) :
    ∃ s : Span, s.IsCharacter item ∧ s.contains pos = true := by
  obtain ⟨front, rest, rfl, hfloor⟩ := isBoundary_iff.1 (isBoundary_floor item pos)
  have hle := floorBoundary_le (front ++ rest) pos
  rw [hfloor] at hle
  cases hrest : rest.toList with
  | nil =>
    -- the last boundary before the offset would be the end of the text
    rw [String.toList_eq_nil_iff] at hrest
    subst hrest
    simp at h
    omega
  | cons c cs =>
    obtain rfl : rest = String.singleton c ++ String.ofList cs := by
      rw [← String.toList_inj, hrest]
      simp
    rw [← String.append_assoc] at h hfloor ⊢
    refine ⟨_, ⟨front, c, String.ofList cs, rfl, rfl⟩, Span.contains_iff.2 ⟨hle, ?_⟩⟩
    have hnext := isBoundary_append (front ++ String.singleton c) (String.ofList cs)
    rw [String.utf8ByteSize_append, String.utf8ByteSize_singleton] at hnext
    by_contra hpast
    dsimp only at hpast
    have hfar : front.utf8ByteSize + c.utf8Size ≤
        floorBoundary (front ++ String.singleton c ++ String.ofList cs) pos :=
      le_boundaryBelow hnext (by omega)
    have := c.utf8Size_pos
    omega

/-- Each byte of a text belongs to one character: the one that is found there. -/
theorem characterAt_eq_iff {item : String} {s : Span} {pos : Nat} (h : pos < item.utf8ByteSize) :
    characterAt item pos = s ↔ s.IsCharacter item ∧ s.contains pos = true := by
  constructor
  · rintro rfl
    obtain ⟨s, hs, hpos⟩ := exists_isCharacter h
    rw [characterAt_eq hs hpos]
    exact ⟨hs, hpos⟩
  · exact fun ⟨hs, hpos⟩ => characterAt_eq hs hpos

/-! ## Bytes in runs -/

/-- A byte is in some run. -/
def Covers (runs : List Span) (offset : Nat) : Prop := ∃ run ∈ runs, run.contains offset = true

variable {item : String} {runs : List Span} {span : Span} {offset pos : Nat} {positions : List Nat}

@[simp] theorem covers_cons {run : Span} :
    Covers (run :: runs) offset ↔ run.contains offset = true ∨ Covers runs offset := by
  simp [Covers]

theorem covers_reverse : Covers runs.reverse offset ↔ Covers runs offset := by
  simp [Covers]

/-- A span that does not begin before the last run adds its own bytes only. -/
theorem covers_joinRun (h : ∀ run ∈ runs.head?, run.start ≤ span.start) :
    Covers (joinRun span runs) offset ↔ span.contains offset = true ∨ Covers runs offset := by
  cases runs with
  | nil => simp [Covers, joinRun]
  | cons run runs =>
    have hstart := h run rfl
    rw [joinRun]
    split
    · simp only [covers_cons, ← or_assoc, Span.contains_iff]
      refine or_congr_left ?_
      omega
    · exact covers_cons

theorem start_le_of_joinRun (h : ∀ run ∈ runs.head?, run.start ≤ span.start) :
    ∀ run ∈ (joinRun span runs).head?, run.start ≤ span.start := by
  cases runs with
  | nil => simp [joinRun]
  | cons run runs =>
    have hstart := h run rfl
    rw [joinRun]
    split
    · simpa using hstart
    · simp

theorem floorBoundary_mono (item : String) {pos later : Nat} (h : pos ≤ later) :
    floorBoundary item pos ≤ floorBoundary item later :=
  le_boundaryBelow (isBoundary_floor item pos) (by
    have := floorBoundary_le item pos
    have := le_size_of_isBoundary (isBoundary_floor item pos)
    omega)

/-- Offsets from left to right, none of them before the last run, add the bytes
    of their characters. -/
theorem covers_addPositions (hsorted : positions.Pairwise (· ≤ ·)) :
    ∀ {runs : List Span},
      (∀ pos ∈ positions, ∀ run ∈ runs.head?, run.start ≤ floorBoundary item pos) →
      (Covers (positions.foldl (addPosition item) runs) offset ↔
        (∃ pos ∈ positions, pos < item.utf8ByteSize ∧
          (characterAt item pos).contains offset = true) ∨ Covers runs offset) := by
  induction positions with
  | nil => simp
  | cons pos positions ih =>
    intro runs hbefore
    obtain ⟨hpos, hsorted⟩ := List.pairwise_cons.1 hsorted
    obtain ⟨hfirst, hothers⟩ := List.forall_mem_cons.1 hbefore
    rw [List.foldl_cons]
    by_cases hin : pos < item.utf8ByteSize
    · rw [addPosition, if_pos hin, ih hsorted, covers_joinRun hfirst]
      · simp only [List.mem_cons, exists_eq_or_imp, hin, true_and]
        rw [or_left_comm, or_assoc]
      · exact fun later hlater run hrun => Nat.le_trans
          (start_le_of_joinRun hfirst run hrun)
          (floorBoundary_mono item (hpos later hlater))
    · rw [addPosition, if_neg hin, ih hsorted hothers]
      simp [hin]

/-- The runs of sorted offsets cover the characters with an offset. -/
theorem covers_matchedRuns (hsorted : positions.Pairwise (· ≤ ·)) :
    Covers (matchedRuns item positions) offset ↔
      ∃ s : Span, s.IsCharacter item ∧ s.contains offset = true ∧
        ∃ pos ∈ positions, s.contains pos = true := by
  rw [matchedRuns, covers_reverse, covers_addPositions hsorted (by simp)]
  constructor
  · rintro (⟨pos, hmem, hpos, hcontains⟩ | ⟨run, hrun, -⟩)
    · obtain ⟨hs, hat⟩ := (characterAt_eq_iff hpos).1 rfl
      exact ⟨_, hs, hcontains, pos, hmem, hat⟩
    · cases hrun
  · rintro ⟨s, hs, hcontains, pos, hmem, hat⟩
    refine .inl ⟨pos, hmem, ?_, by rwa [characterAt_eq hs hat]⟩
    obtain ⟨front, c, back, rfl, rfl⟩ := hs
    have := (Span.contains_iff.1 hat).2
    simp only [String.utf8ByteSize_append, String.utf8ByteSize_singleton]
    dsimp only at this
    omega

/-- The runs of any offsets cover whole characters of the text, stand from left
    to right with at least a byte between neighbours, and can be cut out of the
    text for its highlight pattern and for a terminal.  If the offsets are
    sorted, the runs cover the bytes of the characters with an offset, and no
    others. -/
theorem matchedRuns_exact (item : String) (positions : List Nat) :
    (∀ run ∈ matchedRuns item positions,
      run.IsPiece item ∧ run.start < run.stop ∧ run.stop ≤ item.utf8ByteSize) ∧
    (matchedRuns item positions).Pairwise (fun run later => run.stop < later.start) ∧
    (∀ mode lead, highlightPattern? mode item positions lead =
      some (highlightPattern mode item positions lead)) ∧
    lineEvents? item positions = some (lineEvents item positions) ∧
    (positions.Pairwise (· ≤ ·) → ∀ offset,
      Covers (matchedRuns item positions) offset ↔
        ∃ s : Span, s.IsCharacter item ∧ s.contains offset = true ∧
          ∃ pos ∈ positions, s.contains pos = true) := by
  obtain ⟨hruns, hapart⟩ := separate_matchedRuns item positions
  refine ⟨fun run hrun => ?_, hapart, fun mode lead => ?_, lineEvents?_eq item positions,
    fun hsorted offset => covers_matchedRuns hsorted⟩
  · have hpiece := hruns run hrun
    exact ⟨hpiece, hpiece.nonempty, le_size_of_isBoundary hpiece.stop⟩
  · exact highlightPattern?_eq mode item positions lead

/-- An offset within a character, the offset of the next character, and one
    beyond the text. -/
theorem matchedRuns_exact_accent :
    [2, 3, 9].Pairwise (· ≤ ·) ∧ matchedRuns "aéb" [2, 3, 9] = [⟨1, 4⟩] ∧
    ∀ offset, (1 ≤ offset ∧ offset < 4) ↔
      ∃ s : Span, s.IsCharacter "aéb" ∧ s.contains offset = true ∧
        ∃ pos ∈ [2, 3, 9], s.contains pos = true := by
  have hsorted : [2, 3, 9].Pairwise (· ≤ ·) := by decide
  have hruns : matchedRuns "aéb" [2, 3, 9] = [⟨1, 4⟩] := by decide +kernel
  obtain ⟨-, -, -, -, hcovers⟩ := matchedRuns_exact "aéb" [2, 3, 9]
  refine ⟨hsorted, hruns, fun offset => ?_⟩
  rw [← hcovers hsorted offset, hruns]
  simp [Covers, Span.contains_iff]

end FuzzyPath
