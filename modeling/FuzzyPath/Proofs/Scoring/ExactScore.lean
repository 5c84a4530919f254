/-
  FuzzyPath — scores as exact integers.

  A score is computed with additions that have to fit in 32 bits and with 64-bit
  operations that stop at the ends of their range.  With valid weights, and
  texts shorter than 2^30 bytes, none of the former fails and none of the latter
  stops.

  * `Scorer.exactScore` is the score in unbounded integers, and
    `Scorer.exactSteps` are all values on the way to it;
  * `Scaling` says what is known of the parts of a quotient, and `scaled_eq` that
    it is exact then;
  * `countedWords_le`: the words of a name are bounded by its bytes;
  * `score_exact`: the score of an aligned candidate is the exact one.
-/
import FuzzyPath.Proofs.Scoring.WeightOrder
import FuzzyPath.Proofs.Text.Ascii

namespace FuzzyPath

/-! ## Sizes -/

theorem length_le_of_increasing {stops : List Nat} {bound : Nat} (hinc : stops.Pairwise (· < ·))
    (hbound : ∀ stop ∈ stops, stop ≤ bound) : stops.length ≤ bound + 1 := by
  have hsub : stops ⊆ List.range (bound + 1) := fun stop hstop =>
    List.mem_range.2 (Nat.lt_succ_of_le (hbound stop hstop))
  have hle := (List.subperm_of_subset (hinc.imp Nat.ne_of_lt) hsub).length_le
  rwa [List.length_range] at hle

/-- A name has no more than one word for each byte, and one more. -/
theorem length_wordEnds_le (mode : TextMode) (name : String) :
    (wordEnds mode name).length ≤ name.utf8ByteSize + 1 := by
  refine length_le_of_increasing (wordEnds_increasing mode name) fun stop hstop => ?_
  obtain ⟨⟨front, ⟨back, hname⟩, rfl⟩, -⟩ := mem_wordEnds hstop
  have hsize := congrArg (List.length ∘ utf8Chars) hname
  simp only [Function.comp_apply, utf8Chars_append, List.length_append,
    length_utf8Chars_toList] at hsize
  omega

/-- The weights for each candidate, where they are valid. -/
theorem Weights.adjustments_mem {w : Weights} (hvalid : w.validate = .ok ()) :
    (0 ≤ w.currentFilePenalty.toInt ∧ w.currentFilePenalty.toInt ≤ maxAdjustment) ∧
      (0 ≤ w.proximityPenalty.toInt ∧ w.proximityPenalty.toInt ≤ maxAdjustment) ∧
      (0 ≤ w.sharedWordBonus.toInt ∧ w.sharedWordBonus.toInt ≤ maxAdjustment) ∧
      w.maxProximityDistance.toNat ≤ maxDistance := by
  obtain ⟨hranges, hdistance⟩ := validate_eq_ok_iff.1 hvalid
  simp only [ranges, List.forall_mem_cons] at hranges
  obtain ⟨-, -, -, -, -, -, -, -, -, -, -, hcurrent, hnear, hshared, -⟩ := hranges
  exact ⟨hcurrent, hnear, hshared, hdistance⟩

namespace Scorer

variable {s : Scorer} {c : Candidate}

/-! ## The score in unbounded integers -/

/-- The directory steps that are taken off a candidate's score: none unless
    paths are matched beside a current file. -/
def countedSteps (s : Scorer) (c : Candidate) : Nat :=
  if s.query.keyKind = .path ∧ s.context.currentFile.isSome then
    min (directoryDistance c.directoryNames s.currentDirectories)
      s.weights.maxProximityDistance.toNat
  else 0

/-- The shared words that a candidate's score gains. -/
def countedWords (s : Scorer) (c : Candidate) : Nat :=
  if s.query.keyKind = .path ∧ s.context.currentFile.isSome then s.wordsShared c else 0

/-- The score of a candidate that leaves `unmatched` units of its window, and is
    aligned with the worth `raw`. -/
def exactScore (s : Scorer) (c : Candidate) (raw : Int) (unmatched : Nat) : Int :=
  max 1 raw * 1000 * s.weights.lengthScale.toInt / (s.weights.lengthScale.toInt + unmatched) -
    s.countedSteps c * s.weights.proximityPenalty.toInt +
    s.countedWords c * s.weights.sharedWordBonus.toInt -
    (if s.isCurrent c then s.weights.currentFilePenalty.toInt else 0)

/-- What the 64-bit operations on the way to that score come to. -/
def exactSteps (s : Scorer) (c : Candidate) (raw : Int) (unmatched : Nat) : List Int :=
  let scale := s.weights.lengthScale.toInt
  let worth := max 1 raw * 1000
  let scaled := worth * scale / (scale + unmatched)
  let distance := s.countedSteps c * s.weights.proximityPenalty.toInt
  let shared := s.countedWords c * s.weights.sharedWordBonus.toInt
  [worth, worth * scale, scale + unmatched, distance, scaled - distance, shared,
    scaled - distance + shared, s.exactScore c raw unmatched]

/-! ## The quotient -/

/-- A worth of 32 bits, a valid length scale and fewer than 2^30 units. -/
structure Scaling (scale raw : Int) (unmatched : Nat) : Prop where
  scale_pos : 1 ≤ scale
  scale_le : scale ≤ Weights.maxLengthScale
  raw_le : raw ≤ 2147483647
  unmatched_lt : unmatched < 2 ^ 30

namespace Scaling
variable {scale raw : Int} {unmatched : Nat} (h : Scaling scale raw unmatched)
include h

theorem product_mem : 0 ≤ max 1 raw * 1000 * scale ∧
    max 1 raw * 1000 * scale ≤ 2251799812636672000 := by
  obtain ⟨hpos, hle, hraw, -⟩ := h
  refine ⟨mul_nonneg (by omega) (by omega), ?_⟩
  calc max 1 raw * 1000 * scale
    _ ≤ 2147483647 * 1000 * 1048576 := mul_le_mul (by omega) hle (by omega) (by omega)
    _ = 2251799812636672000 := by norm_num

theorem quotient_mem : 0 ≤ max 1 raw * 1000 * scale / (scale + unmatched) ∧
    max 1 raw * 1000 * scale / (scale + unmatched) ≤ 2251799812636672000 := by
  obtain ⟨hnonneg, hle⟩ := h.product_mem
  have hscale := h.scale_pos
  exact ⟨Int.ediv_nonneg hnonneg (by omega), (Int.ediv_le_self _ hnonneg).trans hle⟩

/-- The division rounds down, and none of its parts leaves the 64-bit range. -/
theorem scaled_eq : scaled scale raw unmatched =
    max 1 raw * 1000 * scale / (scale + unmatched) := by
  obtain ⟨hnonneg, hle⟩ := h.product_mem
  obtain ⟨hpos, hmost, hraw, hfew⟩ := h
  simp only [Weights.maxLengthScale] at hmost
  rw [scaled, max_eq_left hpos, max_comm raw 1,
    saturate64_of_mem (x := max 1 raw * 1000) (by omega) (by omega),
    saturate64_of_mem (x := _ * scale) (by omega) (by omega),
    saturate64_of_mem (x := scale + unmatched) (by omega) (by omega),
    Int.tdiv_eq_ediv_of_nonneg hnonneg]

end Scaling

/-- The divisor of a quotient is never zero. -/
theorem divisor_pos (scale : Int) (unmatched : Nat) :
    0 < saturate64 (max scale 1 + unmatched) := by
  rw [saturate64]
  split_ifs <;> omega

/-! ## The adjustments -/

/-- Without a current file there are no words to be shared. -/
theorem currentWordEnds_of_none (hnew : s.fresh = .new s.query s.weights s.context)
    (hnone : s.context.currentFile = none) : s.currentWordEnds = [] := by
  refine (congrArg Scorer.currentWordEnds hnew).trans ?_
  have hname : (((Path.components s.context.style "").getLast?).map
      (·.slice "")).getD "" = "" := by
    cases (Path.components s.context.style "").getLast? with
    | none => rfl
    | some span =>
      have hsize := span.size_slice_le ""
      exact String.utf8ByteSize_eq_zero_iff.1 (Nat.le_zero.1 hsize)
  rw [new, hnone, Option.getD_none, hname]
  rfl

theorem currentName_size_le (hnew : s.fresh = .new s.query s.weights s.context) :
    s.currentName.utf8ByteSize ≤ (s.context.currentFile.getD "").utf8ByteSize := by
  refine (congrArg (String.utf8ByteSize ∘ Scorer.currentName) hnew).trans_le ?_
  simp only [Function.comp_apply, new]
  cases (Path.components s.context.style (s.context.currentFile.getD "")).getLast? with
  | none => exact Nat.zero_le _
  | some span => exact span.size_slice_le _

theorem countedWords_le (hnew : s.fresh = .new s.query s.weights s.context)
    (hcurrent : ∀ file ∈ s.context.currentFile, file.utf8ByteSize < 2 ^ 30) (c : Candidate) :
    s.countedWords c ≤ 2 ^ 30 := by
  rw [countedWords]
  split
  · rename_i hon
    obtain ⟨file, hfile⟩ := Option.isSome_iff_exists.1 hon.2
    have hsize := currentName_size_le hnew
    rw [hfile] at hsize
    have hfew := length_wordEnds_le s.query.textMode s.currentName
    have hends : s.currentWordEnds = wordEnds s.query.textMode s.currentName :=
      (congrArg Scorer.currentWordEnds hnew).trans
        (congrArg (wordEnds s.query.textMode) (congrArg Scorer.currentName hnew).symm)
    have hshort := hcurrent file hfile
    have hshared := s.wordsShared_le c
    rw [hends] at hshared
    simp only [Option.getD_some] at hsize
    omega
  · exact Nat.zero_le _

section Valid
variable (hvalid : s.weights.validate = .ok ())
include hvalid

theorem distance_mem (c : Candidate) :
    0 ≤ s.countedSteps c * s.weights.proximityPenalty.toInt ∧
      s.countedSteps c * s.weights.proximityPenalty.toInt ≤ 281474976710656 := by
  obtain ⟨-, ⟨hnonneg, hle⟩, -, hmost⟩ := Weights.adjustments_mem hvalid
  have hsteps : (s.countedSteps c : Int) ≤ 65536 := by
    simp only [Weights.maxDistance] at hmost
    rw [countedSteps]
    split <;> omega
  refine ⟨mul_nonneg (Int.natCast_nonneg _) hnonneg, ?_⟩
  calc s.countedSteps c * s.weights.proximityPenalty.toInt
    _ ≤ 65536 * 4294967296 := mul_le_mul hsteps hle hnonneg (by omega)
    _ = 281474976710656 := by norm_num

theorem proximityPenalty_exact (c : Candidate) :
    s.proximityPenalty c = s.countedSteps c * s.weights.proximityPenalty.toInt := by
  obtain ⟨hnonneg, hle⟩ := distance_mem hvalid c
  rw [proximityPenalty]
  by_cases hon : s.query.keyKind = .path ∧ s.context.currentFile.isSome = true
  · rw [countedSteps, if_pos hon] at hnonneg hle ⊢
    rw [if_neg (by rintro (h | h) <;> simp_all)]
    push_cast at hnonneg hle ⊢
    exact saturate64_of_mem (by omega) (by omega)
  · rw [countedSteps, if_neg hon, if_pos ?_]
    · simp
    · by_cases hkind : s.query.keyKind = .path
      · exact .inl (by simpa [hkind] using hon)
      · exact .inr hkind

section Named
variable (hnew : s.fresh = .new s.query s.weights s.context)
  (hcurrent : ∀ file ∈ s.context.currentFile, file.utf8ByteSize < 2 ^ 30)
include hnew hcurrent

theorem shared_mem (c : Candidate) :
    0 ≤ s.countedWords c * s.weights.sharedWordBonus.toInt ∧
      s.countedWords c * s.weights.sharedWordBonus.toInt ≤ 4611686018427387904 := by
  obtain ⟨-, -, ⟨hnonneg, hle⟩, -⟩ := Weights.adjustments_mem hvalid
  have hwords : (s.countedWords c : Int) ≤ 1073741824 := by
    exact_mod_cast countedWords_le hnew hcurrent c
  refine ⟨mul_nonneg (Int.natCast_nonneg _) hnonneg, ?_⟩
  calc s.countedWords c * s.weights.sharedWordBonus.toInt
    _ ≤ 1073741824 * 4294967296 := mul_le_mul hwords hle hnonneg (by omega)
    _ = 4611686018427387904 := by norm_num

theorem sharedWordBonus_exact (c : Candidate) :
    s.sharedWordBonus c = s.countedWords c * s.weights.sharedWordBonus.toInt := by
  obtain ⟨hnonneg, hle⟩ := shared_mem hvalid hnew hcurrent c
  rw [sharedWordBonus]
  by_cases hon : s.query.keyKind = .path ∧ s.context.currentFile.isSome = true
  · rw [countedWords, if_pos hon] at hnonneg hle ⊢
    split
    · rename_i hoff
      have hends : s.currentWordEnds = [] := by simpa [hon.1] using hoff
      have hnone := s.wordsShared_le c
      rw [hends, List.length_nil, Nat.le_zero] at hnone
      simp [hnone]
    · rw [← wordsShared]
      exact saturate64_of_mem (by omega) (by omega)
  · rw [countedWords, if_neg hon, if_pos ?_]
    · simp
    · by_cases hkind : s.query.keyKind = .path
      · refine .inl ?_
        have hnone : s.context.currentFile = none := by simpa [hkind] using hon
        rw [currentWordEnds_of_none hnew hnone]
        rfl
      · exact .inr hkind

/-! ## The whole score -/

/-- None of the values on the way to a score leaves the 64-bit range. -/
theorem saturate64_of_mem_exactSteps {raw : Int} {unmatched : Nat}
    (hscaling : Scaling s.weights.lengthScale.toInt raw unmatched) (c : Candidate) :
    ∀ x ∈ s.exactSteps c raw unmatched, saturate64 x = x := by
  obtain ⟨⟨hpenalty, hpenalty'⟩, -, -, -⟩ := Weights.adjustments_mem hvalid
  obtain ⟨hproduct, hproduct'⟩ := hscaling.product_mem
  obtain ⟨hquotient, hquotient'⟩ := hscaling.quotient_mem
  obtain ⟨hdistance, hdistance'⟩ := distance_mem hvalid c
  obtain ⟨hshared, hshared'⟩ := shared_mem hvalid hnew hcurrent c
  obtain ⟨hscale, hscale', hraw, hfew⟩ := hscaling
  simp only [Weights.maxAdjustment, Weights.maxLengthScale] at hpenalty' hscale'
  simp only [exactSteps, exactScore, List.forall_mem_cons, List.not_mem_nil, false_imp_iff,
    implies_true, and_true]
  refine ⟨?_, ?_, ?_, ?_, ?_, ?_, ?_, ?_⟩ <;> refine saturate64_of_mem ?_ ?_ <;> omega

theorem adjust_exact {raw : Int} {unmatched : Nat}
    (hscaling : Scaling s.weights.lengthScale.toInt raw unmatched) (c : Candidate) :
    s.adjust c (scaled s.weights.lengthScale.toInt raw unmatched) =
      s.exactScore c raw unmatched := by
  have hsteps := saturate64_of_mem_exactSteps hvalid hnew hcurrent hscaling c
  simp only [exactSteps, List.forall_mem_cons] at hsteps
  obtain ⟨-, -, -, -, hnear, -, hshared, hlast, -⟩ := hsteps
  rw [adjust, hscaling.scaled_eq, proximityPenalty_exact hvalid,
    sharedWordBonus_exact hvalid hnew hcurrent, hnear, hshared, penalized]
  rw [exactScore] at hlast ⊢
  by_cases hself : s.isCurrent c = true
  · rw [if_pos hself] at hlast ⊢
    rw [if_pos hself]
    exact hlast
  · rw [if_neg hself, if_neg hself, sub_zero]

end Named
end Valid

/-- The window of a line has no more units than the line has bytes. -/
theorem length_columns_le {index : Nat} {text : String} {mode : MatchMode} {style : PathStyle}
    {window : Span} {columns : List Alignment.Column}
    (h : s.columnsOf (.ofLine index text mode style) window = .ok columns) :
    columns.length ≤ text.utf8ByteSize := by
  rw [length_columns h]
  exact s.length_windowUnits_le _ _ _ _ _

/-- With valid weights, and texts shorter than 2^30 bytes, no addition of a
    score's parts overflows, its division has a divisor, and the score of an
    aligned candidate is the same as in unbounded integers. -/
theorem score_exact {s : Scorer} (hnew : s.fresh = .new s.query s.weights s.context)
    (hvalid : s.weights.validate = .ok ())
    (hcurrent : ∀ file ∈ s.context.currentFile, file.utf8ByteSize < 2 ^ 30)
    {text : String} (htext : text.utf8ByteSize < 2 ^ 30) (index : Nat) (mode : MatchMode)
    (style : PathStyle) :
    let c := Candidate.ofLine index text mode style
    (∀ window, ∃ columns, s.columnsOf c window = .ok columns ∧ ∀ q, ∀ column ∈ columns,
      (s.problem columns).matchPrice q column = .ok ((s.problem columns).gain q column)) ∧
    (∀ unmatched : Nat, 0 < saturate64 (max s.weights.lengthScale.toInt 1 + unmatched)) ∧
    ∀ window columns sol, s.Admits c → s.query.units ≠ [] → s.window c = some window →
      s.columnsOf c window = .ok columns → Alignment.solve (s.problem columns) = .ok (some sol) →
      ∃ unmatched t, columns.length = s.query.units.length + unmatched ∧
        s.score c = .ok (some (s.exactScore c sol.score unmatched), t) ∧
        ∀ x ∈ s.exactSteps c sol.score unmatched, saturate64 x = x := by
  intro c
  refine ⟨fun window => ?_, divisor_pos _, ?_⟩
  · obtain ⟨columns, hcolumns, hp⟩ := columnsOf_valid hvalid c window
    exact ⟨columns, hcolumns, fun q column hmem =>
      Alignment.matchPrice_eq hp q (by simpa [problem] using hmem)⟩
  · intro window columns sol hadmits hquery hwindow hcolumns hsolve
    have hp := moderate_of_columnsOf hvalid hcolumns
    obtain ⟨path, hpath⟩ := (Alignment.solve_isSome_iff hsolve).1 rfl
    have hlen : s.query.units.length ≤ columns.length := by simpa [problem] using hpath.length_le
    obtain ⟨hscale, hscale'⟩ := Weights.lengthScale_mem hvalid
    have hscaling : Scaling s.weights.lengthScale.toInt sol.score
        (columns.length - s.query.units.length) :=
      ⟨hscale, hscale', Alignment.score_le_of_solve hp hquery hsolve,
        (Nat.sub_le _ _).trans_lt ((length_columns_le hcolumns).trans_lt htext)⟩
    have hscore : s.score c = .ok (s.outcome c columns (some sol)) := by
      rw [score_of_admits hadmits, if_neg (by simpa [Query.isEmpty] using hquery), hwindow]
      simp only [hcolumns, Except.bind, hsolve, Except.map]
    refine ⟨columns.length - s.query.units.length, (s.outcome c columns (some sol)).2, by omega, ?_,
      saturate64_of_mem_exactSteps hvalid hnew hcurrent hscaling c⟩
    rw [hscore, ← adjust_exact hvalid hnew hcurrent hscaling c]
    rfl

/-- The largest weights that are valid. -/
def largestWeights : Weights where
  matchBase := 4096
  consecutiveBonus := 4096
  componentStartBonus := 4096
  wordStartBonus := 4096
  camelCaseBonus := 4096
  filenameBonus := 4096
  exactCaseBonus := 4096
  gapOpenPenalty := 4096
  gapExtendPenalty := 4096
  componentGapPenalty := 4096
  lengthScale := 1048576
  currentFilePenalty := 4294967296
  proximityPenalty := 4294967296
  maxProximityDistance := 65536
  sharedWordBonus := 4294967296

theorem fresh_new (query : Query) (w : Weights) (context : EditorContext) :
    (new query w context).fresh = new query w context := rfl

/-- The scorer of the query `g` with them, beside an open file. -/
def scorerAtLimit : Scorer := .new queryG largestWeights ⟨some "src/g.rs", true, .unix⟩

theorem score_exact_lib : scorerAtLimit.weights.validate = .ok () ∧
    (∀ file ∈ scorerAtLimit.context.currentFile, file.utf8ByteSize < 2 ^ 30) ∧
    "lib/g.rs".utf8ByteSize < 2 ^ 30 ∧
    ∃ t, scorerAtLimit.score (.ofLine 0 "lib/g.rs" .fullLine .unix) =
      .ok (some (16384 * 1000 * 1048576 / (1048576 + 7) - 2 * 4294967296 + 4294967296), t) := by
  have hvalid : scorerAtLimit.weights.validate = .ok () := by decide +kernel
  have hcurrent : ∀ file ∈ scorerAtLimit.context.currentFile, file.utf8ByteSize < 2 ^ 30 := by
    rintro file hfile
    obtain rfl : "src/g.rs" = file := Option.some.inj hfile
    have hsize : "src/g.rs".utf8ByteSize = 8 := by decide +kernel
    omega
  have htext : "lib/g.rs".utf8ByteSize < 2 ^ 30 := by
    have hsize : "lib/g.rs".utf8ByteSize = 8 := by decide +kernel
    omega
  have hsolved : ((scorerAtLimit.columnsOf (.ofLine 0 "lib/g.rs" .fullLine .unix) ⟨0, 8⟩).bind
      fun columns => (Alignment.solve (scorerAtLimit.problem columns)).map fun sol =>
        (columns.length, sol)) = .ok (8, some ⟨16384, [4]⟩) := by decide +kernel
  obtain ⟨columns, hcolumns, hsolved⟩ := bind_eq_ok hsolved
  obtain ⟨result, hsolve, hresult⟩ := map_eq_ok hsolved
  obtain ⟨hlen, rfl⟩ := Prod.mk.inj hresult
  have hnew : scorerAtLimit.fresh =
      .new scorerAtLimit.query scorerAtLimit.weights scorerAtLimit.context := fresh_new ..
  obtain ⟨-, -, hexact⟩ := score_exact hnew hvalid hcurrent htext 0 .fullLine .unix
  obtain ⟨unmatched, t, hunmatched, hscore, -⟩ := hexact ⟨0, 8⟩ columns _
    (by unfold Admits; decide +kernel) (by decide) (by decide +kernel) hcolumns hsolve
  obtain rfl : unmatched = 7 := by
    have hone : scorerAtLimit.query.units.length = 1 := rfl
    omega
  have hvalue : scorerAtLimit.exactScore (.ofLine 0 "lib/g.rs" .fullLine .unix) 16384 7 =
      16384 * 1000 * 1048576 / (1048576 + 7) - 2 * 4294967296 + 4294967296 := by decide +kernel
  exact ⟨hvalid, hcurrent, htext, t, hscore.trans (by rw [hvalue])⟩

end Scorer

end FuzzyPath
