/-
  FuzzyPath — where the current file is ranked.

  The file open in the editor is meant to come after the lines that are aligned
  equally well.  Its penalty is flat, while its own name earns it the bonus for
  every word.

  * `Scorer.alignmentPart` is the score of a candidate before the adjustments,
    and `score_eq` the score in terms of it;
  * `adjust_standard`: with the standard weights no adjustment leaves the 64-bit
    range, so that a score is a plain sum;
  * `currentFile_lt_iff`: when a line is scored above the current file.  It
    always is if the current file's name has at most two words, but the seven
    words of `a_b_c_d_e_f_g.rs` outweigh the penalty
    (`currentFile_above_letters`).
-/
import FuzzyPath.Proofs.Path.Distance
import FuzzyPath.Proofs.Scoring.Reuse
import FuzzyPath.Proofs.Scoring.SharedWords

namespace FuzzyPath

theorem saturate64_of_mem {x : Int} (hlow : -9223372036854775808 ≤ x)
    (hhigh : x ≤ 9223372036854775807) : saturate64 x = x := by
  rw [saturate64, if_neg (by omega), if_neg (by omega)]

namespace Scorer

variable {s : Scorer} {c : Candidate}

/-! ## The alignment part of a score -/

/-- The scaled worth of the alignment of a candidate: its score before the
    adjustments. -/
def alignmentPart (s : Scorer) (c : Candidate) : Except Fault (Option Int) :=
  match s.window c with
  | none => .ok none
  | some window => (s.columnsOf c window).bind fun columns =>
      (Alignment.solve (s.problem columns)).map fun result => result.map fun sol =>
        scaled s.weights.lengthScale.toInt sol.score (columns.length - s.query.units.length)

/-- A score with all its adjustments. -/
def adjust (s : Scorer) (c : Candidate) (part : Int) : Int :=
  s.penalized c (saturate64 (saturate64 (part - s.proximityPenalty c) + s.sharedWordBonus c))

/-- The score of a candidate that is not dropped is its alignment part,
    adjusted. -/
theorem score_eq (hadmits : s.Admits c) (hquery : s.query.units ≠ []) :
    (s.score c).map Prod.fst = (s.alignmentPart c).map (Option.map (s.adjust c)) := by
  rw [score_of_admits hadmits, if_neg (by simpa [Query.isEmpty] using hquery), alignmentPart]
  cases s.window c with
  | none => rfl
  | some window =>
    dsimp only
    cases s.columnsOf c window with
    | error fault => rfl
    | ok columns =>
      simp only [Except.bind]
      cases Alignment.solve (s.problem columns) with
      | error fault => rfl
      | ok result => cases result <;> rfl

theorem exists_part_of_score (hadmits : s.Admits c) (hquery : s.query.units ≠ [])
    {r : Option Int} {t : Scorer} (h : s.score c = .ok (r, t)) :
    ∃ part, s.alignmentPart c = .ok part ∧ part.map (s.adjust c) = r := by
  have heq := score_eq hadmits hquery
  rw [h] at heq
  exact map_eq_ok heq.symm

/-- Where there is an alignment part, there is a window, and the query is
    solved on its columns. -/
theorem alignmentPart_cases {part : Option Int} (h : s.alignmentPart c = .ok part) :
    (s.window c = none ∧ part = none) ∨ ∃ window columns result,
      s.window c = some window ∧ s.columnsOf c window = .ok columns ∧
      Alignment.solve (s.problem columns) = .ok result ∧
      part = result.map fun sol =>
        scaled s.weights.lengthScale.toInt sol.score (columns.length - s.query.units.length) := by
  rw [alignmentPart] at h
  cases hwindow : s.window c with
  | none =>
    rw [hwindow] at h
    exact .inl ⟨rfl, (Except.ok.inj h).symm⟩
  | some window =>
    rw [hwindow] at h
    obtain ⟨columns, hcolumns, h⟩ := bind_eq_ok h
    obtain ⟨result, hresult, rfl⟩ := map_eq_ok h
    exact .inr ⟨window, columns, result, rfl, hcolumns, hresult, rfl⟩

/-- The score of a line that matches comes of its alignment part. -/
theorem eq_adjust_of_score (hquery : s.query.units ≠ []) {line : String} (hmeets : s.Meets line)
    {index : Nat} {part x : Int} {t : Scorer}
    (hpart : s.alignmentPart (s.candidate index line) = .ok (some part))
    (hscore : s.score (s.candidate index line) = .ok (some x, t)) :
    x = s.adjust (s.candidate index line) part := by
  obtain ⟨part?, hpart', hadjust⟩ := exists_part_of_score (hmeets.admits index) hquery hscore
  obtain rfl := Except.ok.inj (hpart.symm.trans hpart')
  exact (Option.some.inj hadjust).symm

/-- A line that matches has an alignment part and a score, as long as 32 bits hold
    its columns. -/
theorem exists_score_of_meets (hweights : s.weights = .standard) (hquery : s.query.units ≠ [])
    {line : String} (hmeets : s.Meets line) {index : Nat}
    (hsize : s.Addressable (s.candidate index line)) :
    ∃ part x t, s.alignmentPart (s.candidate index line) = .ok (some part) ∧
      s.score (s.candidate index line) = .ok (some x, t) := by
  have hadmits := hmeets.admits index
  obtain ⟨⟨r, t⟩, hscore⟩ := exists_score_of_standard hweights hsize
  have hsome := (isSome_iff_covers hadmits hquery hscore).2 (hmeets.covers.resolve_left hquery)
  obtain ⟨x, rfl⟩ := Option.isSome_iff_exists.1 hsome
  obtain ⟨part?, hpart, hadjust⟩ := exists_part_of_score hadmits hquery hscore
  obtain ⟨part, rfl, -⟩ := Option.map_eq_some_iff.1 hadjust
  exact ⟨part, x, t, hpart, hscore⟩

/-- A scaled worth is far from both ends of the 64-bit range. -/
theorem scaled_mem (raw : Int) (unmatched : Nat) :
    0 ≤ scaled 128 raw unmatched ∧ scaled 128 raw unmatched ≤ 2 ^ 56 := by
  have hraw : 0 ≤ saturate64 (max raw 1 * 1000) := by
    rw [saturate64]
    split_ifs <;> omega
  have hworth : 0 ≤ saturate64 (saturate64 (max raw 1 * 1000) * 128) ∧
      saturate64 (saturate64 (max raw 1 * 1000) * 128) ≤ 9223372036854775807 := by
    rw [saturate64]
    split_ifs <;> omega
  have hscale : 128 ≤ saturate64 (128 + unmatched) := by
    rw [saturate64]
    split_ifs <;> omega
  rw [scaled, show max (128 : Int) 1 = 128 from rfl, Int.tdiv_eq_ediv_of_nonneg hworth.1]
  exact ⟨Int.ediv_nonneg hworth.1 (by omega), Int.ediv_le_of_le_mul (by omega) (by omega)⟩

theorem alignmentPart_mem (hweights : s.weights = .standard) {part : Int}
    (h : s.alignmentPart c = .ok (some part)) : 0 ≤ part ∧ part ≤ 2 ^ 56 := by
  rcases alignmentPart_cases h with ⟨-, hnone⟩ | ⟨_, columns, result, -, -, -, hsome⟩
  · cases hnone
  · obtain ⟨sol, -, rfl⟩ := Option.map_eq_some_iff.1 hsome.symm
    rw [hweights]
    exact scaled_mem _ _

/-! ## The adjustments -/

/-- The directory steps between a candidate and the current file, as far as they
    count. -/
def stepsAway (s : Scorer) (c : Candidate) : Nat :=
  min (directoryDistance c.directoryNames s.currentDirectories) 16

/-- The number of words that the name of a candidate shares with the current
    file's. -/
def wordsShared (s : Scorer) (c : Candidate) : Nat :=
  sharedLeadingWords s.query.textMode c.filename s.currentName s.currentWordEnds

theorem wordsShared_le (s : Scorer) (c : Candidate) :
    s.wordsShared c ≤ s.currentWordEnds.length := sharedLeadingWords_le_length _ _ _ _

section Standard
variable (hweights : s.weights = .standard) (hkind : s.query.keyKind = .path)
include hweights hkind

theorem proximityPenalty_standard (hopened : s.context.currentFile ≠ none) :
    s.proximityPenalty c = 200 * s.stepsAway c := by
  have hweight : s.weights.proximityPenalty.toInt = 200 := by rw [hweights]; rfl
  have hmost : s.weights.maxProximityDistance.toNat = 16 := by rw [hweights]; rfl
  rw [proximityPenalty, if_neg (by simp [hopened, hkind]), hweight, hmost, stepsAway]
  rw [saturate64_of_mem (by omega) (by omega)]
  push_cast
  exact mul_comm _ _

theorem sharedWordBonus_standard (hwords : s.currentWordEnds.length ≤ 2 ^ 52) :
    s.sharedWordBonus c = 800 * s.wordsShared c := by
  have hweight : s.weights.sharedWordBonus.toInt = 800 := by rw [hweights]; rfl
  have hle := s.wordsShared_le c
  by_cases hnone : s.currentWordEnds = []
  · have hzero : s.wordsShared c = 0 := by
      rw [hnone] at hle
      exact Nat.le_zero.1 hle
    rw [sharedWordBonus, if_pos (by simp [hnone]), hzero]
    rfl
  · rw [sharedWordBonus, if_neg (by simp [hnone, hkind]), hweight, ← wordsShared]
    rw [saturate64_of_mem (by omega) (by omega), mul_comm]

/-- With the standard weights, no sum of a score leaves the 64-bit range. -/
theorem adjust_standard (hopened : s.context.currentFile ≠ none)
    (hwords : s.currentWordEnds.length ≤ 2 ^ 52) {part : Int} (hlow : 0 ≤ part)
    (hhigh : part ≤ 2 ^ 56) : s.adjust c part =
      part - 200 * s.stepsAway c + 800 * s.wordsShared c -
        (if s.isCurrent c then 5000 else 0) := by
  have hpenalty : s.weights.currentFilePenalty.toInt = 5000 := by rw [hweights]; rfl
  have hsteps : s.stepsAway c ≤ 16 := Nat.min_le_right ..
  have hle := s.wordsShared_le c
  rw [adjust, proximityPenalty_standard hweights hkind hopened,
    sharedWordBonus_standard hweights hkind hwords, penalized, hpenalty,
    saturate64_of_mem (x := part - _) (by omega) (by omega),
    saturate64_of_mem (x := _ + _) (by omega) (by omega)]
  split
  · exact saturate64_of_mem (by omega) (by omega)
  · rw [sub_zero]

end Standard

/-! ## The current file among the others -/

/-- The current file is at no distance from itself and shares all its words, if
    all of the line is its key. -/
theorem adjustments_self (hnew : s.fresh = .new s.query s.weights s.context) {file : String}
    (hfile : s.context.currentFile = some file) (hkey : s.query.matchMode.IsKey file file)
    (index : Nat) : s.stepsAway (s.candidate index file) = 0 ∧
      s.wordsShared (s.candidate index file) = s.currentWordEnds.length := by
  have hspans : (s.candidate index file).components =
      Path.components s.context.style (s.context.currentFile.getD "") := by
    rw [Candidate.components, key_candidate hkey, hfile]
    rfl
  have hdirectories : s.currentDirectories = (s.candidate index file).directoryNames := by
    rw [Candidate.directoryNames, hspans, key_candidate hkey]
    refine (congrArg Scorer.currentDirectories hnew).trans ?_
    rw [new, hfile]
    rfl
  have hname : s.currentName = (s.candidate index file).filename := by
    rw [Candidate.filename, hspans, key_candidate hkey]
    refine (congrArg Scorer.currentName hnew).trans ?_
    rw [new, hfile]
    rfl
  have hends : s.currentWordEnds = wordEnds s.query.textMode s.currentName :=
    (congrArg Scorer.currentWordEnds hnew).trans
      (congrArg (wordEnds s.query.textMode) (congrArg Scorer.currentName hnew).symm)
  constructor
  · rw [stepsAway, hdirectories, directoryDistance_self]
    rfl
  · rw [wordsShared, ← hname, hends, sharedLeadingWords_self]

/-- When a line is scored above the current file, if both match on paths and are
    aligned equally well.  A step away from the current file costs 200, a word of
    its name that the line does not begin with 800, and to be the current file
    5000.  With at most two words, the current file is always below.  Both have a
    score as long as 32 bits hold their columns. -/
theorem currentFile_lt_iff {s : Scorer} (hnew : s.fresh = .new s.query .standard s.context)
    (hkind : s.query.keyKind = .path) (hquery : s.query.units ≠ []) {file line : String}
    (hfile : s.context.currentFile = some file) (hother : line ≠ file) (hmeets : s.Meets file)
    (hmeets' : s.Meets line) (hwords : s.currentWordEnds.length ≤ 2 ^ 52) (i j : Nat) :
    (s.Addressable (s.candidate i file) → s.Addressable (s.candidate j line) →
      ∃ part part' x y t t',
        s.alignmentPart (s.candidate i file) = .ok (some part) ∧
        s.score (s.candidate i file) = .ok (some x, t) ∧
        s.alignmentPart (s.candidate j line) = .ok (some part') ∧
        s.score (s.candidate j line) = .ok (some y, t')) ∧
      (s.query.matchMode.IsKey file file → s.stepsAway (s.candidate i file) = 0 ∧
        s.wordsShared (s.candidate i file) = s.currentWordEnds.length) ∧
      ∀ part x y t t', s.alignmentPart (s.candidate i file) = .ok (some part) →
        s.score (s.candidate i file) = .ok (some x, t) →
        s.alignmentPart (s.candidate j line) = .ok (some part) →
        s.score (s.candidate j line) = .ok (some y, t') →
          (x < y ↔
            200 * s.stepsAway (s.candidate j line) + 800 * s.wordsShared (s.candidate i file) <
              5000 + 200 * s.stepsAway (s.candidate i file) +
                800 * s.wordsShared (s.candidate j line)) ∧
          (s.currentWordEnds.length ≤ 2 → x < y) := by
  have hweights : s.weights = .standard := congrArg Scorer.weights hnew
  have hopened : s.context.currentFile ≠ none := by simp [hfile]
  refine ⟨fun hsize hsize' => ?_, fun hkey => adjustments_self (hweights ▸ hnew) hfile hkey i, ?_⟩
  · obtain ⟨part, x, t, hpart, hscore⟩ := exists_score_of_meets hweights hquery hmeets hsize
    obtain ⟨part', y, t', hpart', hscore'⟩ :=
      exists_score_of_meets hweights hquery hmeets' hsize'
    exact ⟨part, part', x, y, t, t', hpart, hscore, hpart', hscore'⟩
  · intro part x y t t' hpart hscore hpart' hscore'
    obtain ⟨hlow, hhigh⟩ := alignmentPart_mem hweights hpart
    have hx := (eq_adjust_of_score hquery hmeets hpart hscore).trans
      (adjust_standard hweights hkind hopened hwords hlow hhigh)
    have hy := (eq_adjust_of_score hquery hmeets' hpart' hscore').trans
      (adjust_standard hweights hkind hopened hwords hlow hhigh)
    rw [if_pos (by rw [isCurrent, hfile]; exact beq_self_eq_true _)] at hx
    rw [if_neg (by
      rw [isCurrent, hfile, beq_iff_eq, Option.some.injEq]
      exact Ne.symm hother)] at hy
    have hsteps' : s.stepsAway (s.candidate j line) ≤ 16 := Nat.min_le_right ..
    have hshared := s.wordsShared_le (s.candidate i file)
    rw [hx, hy]
    exact ⟨by omega, fun hfew => by omega⟩

/-- The query `g` on paths. -/
def queryG : Query := ⟨"g", [], .fullLine, .path, .bytes, false, [⟨'g', 'g', 0, 1⟩]⟩

/-- Its scorer beside an open file. -/
def scorerBeside (file : String) : Scorer := .new queryG .standard ⟨some file, true, .unix⟩

theorem fresh_beside (file : String) : (scorerBeside file).fresh =
    .new (scorerBeside file).query .standard (scorerBeside file).context := rfl

theorem meets_beside {file line : String}
    (h : (queryG.units.map queryG.compared).Sublist
      ((queryG.textMode.decode line 0).map queryG.compared)) :
    (scorerBeside file).Meets line where
  included text htext := by cases htext
  allowed _ := rfl
  covers := .inr ⟨"", line, ⟨line, rfl, rfl, rfl⟩, h⟩

theorem currentFile_lt_lib :
    (scorerBeside "src/g.rs").context.currentFile = some "src/g.rs" ∧
      (scorerBeside "src/g.rs").Meets "src/g.rs" ∧ (scorerBeside "src/g.rs").Meets "lib/g.rs" ∧
      ∃ x y t t',
        (scorerBeside "src/g.rs").score ((scorerBeside "src/g.rs").candidate 0 "src/g.rs") =
          .ok (some x, t) ∧
        (scorerBeside "src/g.rs").score ((scorerBeside "src/g.rs").candidate 1 "lib/g.rs") =
          .ok (some y, t') ∧ x < y := by
  have hmeets : (scorerBeside "src/g.rs").Meets "src/g.rs" := meets_beside (by decide +kernel)
  have hmeets' : (scorerBeside "src/g.rs").Meets "lib/g.rs" := meets_beside (by decide +kernel)
  have hends : (scorerBeside "src/g.rs").currentWordEnds = [1] := by decide +kernel
  have hparts : (scorerBeside "src/g.rs").alignmentPart
        ((scorerBeside "src/g.rs").candidate 0 "src/g.rs") =
      (scorerBeside "src/g.rs").alignmentPart
        ((scorerBeside "src/g.rs").candidate 1 "lib/g.rs") := by decide +kernel
  have hbytes : "src/g.rs".utf8ByteSize = 8 := by decide +kernel
  have hbytes' : "lib/g.rs".utf8ByteSize = 8 := by decide +kernel
  obtain ⟨hscored, -, hbelow⟩ :=
    currentFile_lt_iff (fresh_beside "src/g.rs") rfl (by decide) rfl
      (show "lib/g.rs" ≠ "src/g.rs" by decide +kernel) hmeets hmeets' (by rw [hends]; decide) 0 1
  obtain ⟨part, part', x, y, t, t', hpart, hscore, hpart', hscore'⟩ :=
    hscored (addressable_of_size_lt _ (by rw [hbytes]; decide) _ _ _)
      (addressable_of_size_lt _ (by rw [hbytes']; decide) _ _ _)
  obtain rfl : part = part' :=
    Option.some.inj (Except.ok.inj (hpart.symm.trans (hparts.trans hpart')))
  obtain ⟨-, hfew⟩ := hbelow part x y t t' hpart hscore hpart' hscore'
  exact ⟨rfl, hmeets, hmeets', x, y, t, t', hscore, hscore', hfew (by rw [hends]; decide)⟩

/-- The seven words of its own name lift the current file above a line that is
    aligned as well. -/
theorem currentFile_above_letters :
    (scorerBeside "a_b_c_d_e_f_g.rs").alignmentPart
        ((scorerBeside "a_b_c_d_e_f_g.rs").candidate 0 "a_b_c_d_e_f_g.rs") = .ok (some 36699) ∧
      (scorerBeside "a_b_c_d_e_f_g.rs").alignmentPart
        ((scorerBeside "a_b_c_d_e_f_g.rs").candidate 1 "b_a_c_d_e_f_g.rs") = .ok (some 36699) ∧
      ((scorerBeside "a_b_c_d_e_f_g.rs").score
        ((scorerBeside "a_b_c_d_e_f_g.rs").candidate 0 "a_b_c_d_e_f_g.rs")).map Prod.fst =
          .ok (some 37299) ∧
      ((scorerBeside "a_b_c_d_e_f_g.rs").score
        ((scorerBeside "a_b_c_d_e_f_g.rs").candidate 1 "b_a_c_d_e_f_g.rs")).map Prod.fst =
          .ok (some 36699) := by
  decide +kernel

end Scorer

end FuzzyPath
