/-
  FuzzyPath — the matched positions.

  * `Scorer.Places` says that byte offsets put the query on the window of a
    line, one offset for each unit;
  * `positions_of_isAlignment`: those of an alignment do;
  * `exists_evaluate_of_standard`: with the standard weights no candidate fails whose
    columns fit 32 bits;
  * `places_iff_survives`: with valid weights a line that meets the criterion is
    given such offsets exactly if its problem survives, as far as 32 bits hold the
    columns.  If it does not, there is no result at all, as `evaluate_gapLine`
    shows.
-/
import FuzzyPath.Proofs.Fallible
import FuzzyPath.Proofs.Scoring.Criterion

namespace FuzzyPath

namespace Scorer

/-- The byte offsets put the query on the window of a line: one for each unit,
    in order, on a unit that matches it. -/
def Places (s : Scorer) (line : String) (offsets : List Nat) : Prop :=
  ∃ front text, s.IsWindow line front text ∧ offsets.Pairwise (· < ·) ∧
    (∀ o ∈ offsets, front.utf8ByteSize ≤ o ∧ o < front.utf8ByteSize + text.utf8ByteSize) ∧
    List.Forall₂ (fun q o => ∃ u ∈ s.query.textMode.decode text front.utf8ByteSize,
      u.offset = o ∧ s.query.compared q = s.query.compared u) s.query.units offsets

variable {s : Scorer} {line : String}

/-! ## The offsets of an alignment -/

/-- The byte offset of a column, if there is such a column. -/
def columnOffset (columns : List Alignment.Column) (j : Nat) : Nat :=
  (columns[j]?.map (·.unit.offset)).getD 0

theorem columnOffset_eq {columns : List Alignment.Column} {j : Nat} {c : Alignment.Column}
    (h : columns[j]? = some c) : columnOffset columns j = c.unit.offset := by
  rw [columnOffset, h]; rfl

/-- A path through a column that there is not has no offsets. -/
theorem exists_positions_eq_error {j : Nat} (hj : j ∈ s.path) (hout : s.columns.size ≤ j) :
    ∃ fault, s.positions = .error fault := by
  have hfault : offsetOf s.columns j = .error (.indexOutOfRange j s.columns.size) := by
    rw [offsetOf, Array.getElem?_eq_none hout]
  exact exists_mapM_eq_error hfault hj

theorem positions_of_isAlignment {columns : List Alignment.Column} {path : List Nat}
    (h : (s.problem columns).IsAlignment path) {s' : Scorer}
    (hcolumns : s'.columns = columns.toArray) (hpath : s'.path = path) :
    s'.positions = .ok (path.map (columnOffset columns)) := by
  rw [positions, hcolumns, hpath]
  refine mapM_eq_ok fun j hj => ?_
  have hlt : j < columns.length := h.lt_length hj
  simp [offsetOf, columnOffset, hlt]

/-- The offsets of an alignment put the query on the window. -/
theorem places_of_isAlignment {index : Nat} {window : Span} {columns : List Alignment.Column}
    (hwindow : s.window (s.candidate index line) = some window)
    (hcolumns : s.columnsOf (s.candidate index line) window = .ok columns) {path : List Nat}
    (h : (s.problem columns).IsAlignment path) :
    s.Places line (path.map (columnOffset columns)) := by
  obtain ⟨front, text, htext⟩ := exists_isWindow hwindow
  have hunits := (columnsOf_units hcolumns).trans (windowUnits_eq htext hwindow)
  have hmem : ∀ (j : Nat) (c : Alignment.Column), columns[j]? = some c →
      c.unit ∈ s.query.textMode.decode text front.utf8ByteSize := fun j c hc =>
    hunits ▸ List.mem_map_of_mem (List.mem_of_getElem? hc)
  have hget : ∀ j ∈ path, ∃ c, columns[j]? = some c := fun j hj =>
    ⟨_, List.getElem?_eq_getElem (show j < columns.length from h.lt_length hj)⟩
  refine ⟨front, text, htext, ?_, ?_, ?_⟩
  · have hinc := s.query.textMode.decode_increasing text front.utf8ByteSize
    rw [← hunits, List.pairwise_map, List.pairwise_iff_getElem] at hinc
    rw [List.pairwise_map]
    refine h.increasing.imp_of_mem fun {i j} hi hj hij => ?_
    obtain ⟨ci, hci⟩ := hget i hi
    obtain ⟨cj, hcj⟩ := hget j hj
    obtain ⟨hi', rfl⟩ := List.getElem?_eq_some_iff.1 hci
    obtain ⟨hj', rfl⟩ := List.getElem?_eq_some_iff.1 hcj
    have hpos := (TextMode.mem_decode (hmem i _ hci)).2.2
    rw [columnOffset_eq hci, columnOffset_eq hcj]
    exact (Nat.lt_add_of_pos_right hpos).trans_le (hinc i j hi' hj' hij)
  · intro o ho
    obtain ⟨j, hj, rfl⟩ := List.mem_map.1 ho
    obtain ⟨c, hc⟩ := hget j hj
    obtain ⟨hlow, hhigh, hpos⟩ := TextMode.mem_decode (hmem j c hc)
    rw [columnOffset_eq hc]
    omega
  · rw [List.forall₂_map_right_iff]
    refine h.matching.imp fun q j hj => ?_
    obtain ⟨c, hc, hq⟩ := hj
    exact ⟨c.unit, hmem j c hc, (columnOffset_eq hc).symm, Query.unitMatches_iff.1 hq⟩

/-! ## Matched lines -/

/-- The columns of a line that meets the criterion can be aligned. -/
theorem exists_columns_of_meets (hvalid : s.weights.validate = .ok ())
    (hquery : s.query.units ≠ []) (hmeets : s.Meets line) (index : Nat) :
    ∃ window columns, s.window (s.candidate index line) = some window ∧
      s.columnsOf (s.candidate index line) window = .ok columns ∧
      (s.problem columns).Moderate ∧ (∃ path, (s.problem columns).IsAlignment path) ∧
      s.score (s.candidate index line) =
        (Alignment.solve (s.problem columns)).map (s.outcome (s.candidate index line) columns) := by
  obtain ⟨front, text, htext, hsub⟩ := hmeets.covers.resolve_left hquery
  obtain ⟨window, hwindow, hunits⟩ := window_of_isWindow htext index
  obtain ⟨columns, hcolumns, hp⟩ := columnsOf_valid hvalid (s.candidate index line) window
  refine ⟨window, columns, hwindow, hcolumns, hp, ?_, ?_⟩
  · rw [exists_isAlignment_iff hcolumns, hunits]; exact hsub
  · rw [score_of_admits (hmeets.admits index), if_neg (by simpa [Query.isEmpty] using hquery), hwindow]
    simp only [hcolumns, Except.bind]

/-- If no alignment of the columns endures, a candidate cannot be evaluated. -/
theorem evaluate_of_not_survives {c : Candidate} {columns : List Alignment.Column}
    (hp : (s.problem columns).Moderate) (hquery : s.query.units ≠ [])
    (hscore : s.score c = (Alignment.solve (s.problem columns)).map (s.outcome c columns))
    (hnot : ¬ (s.problem columns).Survives) (hsize : columns.length < 2 ^ 32) :
    ∃ fault, s.evaluate c = .error fault := by
  rw [evaluate, hscore]
  cases hsolve : Alignment.solve (s.problem columns) with
  | error fault => exact ⟨fault, rfl⟩
  | ok result =>
    obtain ⟨sol, rfl, hmem⟩ := Alignment.mem_path_of_not_survives hp hquery hnot hsolve
    have hout : columns.toArray.size ≤ Alignment.noColumn.toNat := Nat.le_of_lt_succ hsize
    obtain ⟨fault, hfault⟩ :=
      exists_positions_eq_error (s := (s.outcome c columns (some sol)).2) hmem hout
    refine ⟨fault, ?_⟩
    simp only [Except.map, bind, Except.bind]
    simp only [outcome] at hfault ⊢
    simp only [hfault]

/-- With the standard weights every candidate can be evaluated, as long as 32 bits
    hold its columns. -/
theorem exists_evaluate_of_standard (hweights : s.weights = .standard) {c : Candidate}
    (hsize : s.Addressable c) : ∃ outcome, s.evaluate c = .ok outcome := by
  have hnone {t : Scorer} (hscore : s.score c = .ok (none, t)) :
      ∃ outcome, s.evaluate c = .ok outcome := ⟨(none, t), by rw [evaluate, hscore]; rfl⟩
  have hsome {x : Int} {t : Scorer} {offsets : List Nat} (hscore : s.score c = .ok (some x, t))
      (hpositions : t.positions = .ok offsets) : ∃ outcome, s.evaluate c = .ok outcome :=
    ⟨(some ⟨x, offsets⟩, t), by
      rw [evaluate, hscore]
      simp only [bind, Except.bind, hpositions]
      rfl⟩
  by_cases hadmits : s.Admits c
  · by_cases hquery : s.query.units = []
    · exact hsome (score_of_empty hadmits hquery) rfl
    · have hscore := score_of_admits hadmits
      rw [if_neg (by simpa [Query.isEmpty] using hquery)] at hscore
      cases hwindow : s.window c with
      | none =>
        rw [hwindow] at hscore
        exact hnone hscore
      | some window =>
        obtain ⟨columns, result, hcolumns, hsolve, hpath⟩ :=
          exists_solve_of_standard hweights hquery hwindow hsize
        simp only [hwindow, hcolumns, Except.bind, hsolve, Except.map] at hscore
        cases result with
        | none => exact hnone hscore
        | some sol => exact hsome hscore (positions_of_isAlignment (hpath sol rfl) rfl rfl)
  · exact hnone (score_of_not_admits hadmits)

/-- With valid weights, a line that meets the criterion is matched at offsets
    that put the query on its window, if the table is not used or an alignment
    endures; the standard weights see to that.  Otherwise it has no result.  Both
    hold of windows whose columns fit 32 bits. -/
theorem places_iff_survives (hvalid : s.weights.validate = .ok ()) (hquery : s.query.units ≠ [])
    (hmeets : s.Meets line) (index : Nat) :
    ∃ window columns, s.window (s.candidate index line) = some window ∧
      s.columnsOf (s.candidate index line) window = .ok columns ∧
      (s.weights = .standard → (s.problem columns).Survives) ∧
      ((s.problem columns).Survives → columns.length < 2 ^ 32 → ∃ score s' offsets,
        s.score (s.candidate index line) = .ok (some score, s') ∧
        s'.positions = .ok offsets ∧ s.Places line offsets) ∧
      (¬ (s.problem columns).Survives → columns.length < 2 ^ 32 →
        ∃ fault, s.evaluate (s.candidate index line) = .error fault) := by
  obtain ⟨window, columns, hwindow, hcolumns, hp, hsome, hscore⟩ :=
    exists_columns_of_meets hvalid hquery hmeets index
  refine ⟨window, columns, hwindow, hcolumns, fun hweights => ?_, fun hsurvives hsize => ?_,
    evaluate_of_not_survives hp hquery hscore⟩
  · obtain ⟨hopen, hpass⟩ := gap_le_of_standard hweights columns
    exact Alignment.survives_of_gap_le hp hquery hopen hpass
  · obtain ⟨sol, hsol, halign⟩ := Alignment.exists_solve_of_survives hp hquery hsize hsurvives hsome
    refine ⟨_, _, _, by rw [hscore, hsol]; rfl, positions_of_isAlignment halign rfl rfl,
      places_of_isAlignment hwindow hcolumns halign⟩

theorem places_axb : scorerOfAb.weights.validate = .ok () ∧ scorerOfAb.query.units ≠ [] ∧
    scorerOfAb.Meets "axb" ∧ ∃ score s' offsets,
      scorerOfAb.score (scorerOfAb.candidate 0 "axb") = .ok (some score, s') ∧
      s'.positions = .ok offsets ∧ scorerOfAb.Places "axb" offsets := by
  have hvalid : scorerOfAb.weights.validate = .ok () := by decide
  have hquery : scorerOfAb.query.units ≠ [] := by decide
  have hmeets : scorerOfAb.Meets "axb" := by
    refine ⟨fun text h => (by cases h), fun h => (by cases h), Or.inr ⟨"", "axb", ?_, by decide⟩⟩
    exact ⟨"axb", rfl, rfl, rfl⟩
  have hbytes : "axb".utf8ByteSize = 3 := by decide +kernel
  obtain ⟨window, columns, hwindow, hcolumns, hstandard, hsound, -⟩ :=
    places_iff_survives hvalid hquery hmeets 0
  have hsize : columns.length < 2 ^ 32 := (length_columns hcolumns).trans_lt
    (addressable_of_size_lt _ (by rw [hbytes]; decide) _ _ _ window hwindow)
  exact ⟨hvalid, hquery, hmeets, hsound (hstandard rfl) hsize⟩

/-! ## A gap that costs too much -/

/-- A scorer with the greatest price for the length of a gap. -/
def steepScorer : Scorer :=
  .new queryAb { Weights.standard with gapExtendPenalty := 4096 } ⟨none, false, .unix⟩

/-- The letters `a` and `b`, with a gap between them. -/
def gapLine (gap : Nat) : String := .ofList ('a' :: (List.replicate gap 'x' ++ ['b']))

theorem utf8_gapLine (gap : Nat) : utf8 (gapLine gap) = 97 :: (List.replicate gap 120 ++ [98]) := by
  have ha : String.utf8EncodeChar 'a' = [97] := by decide
  have hx : String.utf8EncodeChar 'x' = [120] := by decide
  have hb : String.utf8EncodeChar 'b' = [98] := by decide
  simp [utf8, utf8Chars, gapLine, List.flatMap_replicate, ha, hx, hb]

theorem isWindow_gapLine (gap : Nat) : steepScorer.IsWindow (gapLine gap) "" (gapLine gap) :=
  ⟨gapLine gap, rfl, rfl, rfl⟩

theorem compared_gapLine (gap : Nat) :
    (TextMode.bytes.decode (gapLine gap) 0).map steepScorer.query.compared =
      'a' :: (List.replicate gap 'x' ++ ['b']) := by
  have hmap : ∀ bytes : List UInt8,
      (TextMode.decodeBytes 0 bytes).map steepScorer.query.compared =
        bytes.map fun b => (Char.ofNat b.toNat).toLower := fun bytes => by
    refine List.ext_getElem (by simp [TextMode.decodeBytes]) fun i h h' => ?_
    simp [TextMode.decodeBytes, TextMode.unitAt, Query.compared, steepScorer, Scorer.new,
      queryAb, TextMode.fold]
  rw [TextMode.decode, utf8_gapLine, hmap]
  simp

theorem meets_gapLine (gap : Nat) : steepScorer.Meets (gapLine gap) := by
  refine ⟨fun text h => (by cases h), fun h => (by cases h),
    Or.inr ⟨_, _, isWindow_gapLine gap, ?_⟩⟩
  rw [show steepScorer.query.units.map steepScorer.query.compared = ['a', 'b'] by decide]
  rw [show steepScorer.query.textMode.decode (gapLine gap) "".utf8ByteSize =
    TextMode.bytes.decode (gapLine gap) 0 from rfl, compared_gapLine]
  exact (List.sublist_append_right _ _).cons_cons 'a'

theorem eq_of_getElem?_gap {gap j : Nat} {ch : Char}
    (h : ('a' :: (List.replicate gap 'x' ++ ['b']))[j]? = some ch) :
    (ch = 'a' → j = 0) ∧ (ch = 'b' → j = gap + 1) := by
  cases j with
  | zero =>
    obtain rfl : 'a' = ch := by simpa using h
    exact ⟨fun _ => rfl, fun h => absurd h (by decide)⟩
  | succ j =>
    rw [List.getElem?_cons_succ, List.getElem?_append, List.length_replicate] at h
    split at h
    · obtain rfl : 'x' = ch := (List.mem_replicate.1 (List.mem_of_getElem? h)).2.symm
      exact ⟨fun h => absurd h (by decide), fun h => absurd h (by decide)⟩
    · obtain ⟨hlt, rfl⟩ := List.getElem?_eq_some_iff.1 h
      simp only [List.length_singleton, Nat.lt_one_iff] at hlt
      rw [List.getElem_singleton]
      exact ⟨fun h => absurd h (by decide), fun _ => by omega⟩

section Gap
variable {gap : Nat} {columns : List Alignment.Column}
  (hcolumns : columns.map (steepScorer.query.compared ·.unit) =
    'a' :: (List.replicate gap 'x' ++ ['b']))
include hcolumns

/-- There is a single alignment. -/
theorem eq_of_isAlignment_gap {path : List Nat}
    (h : (steepScorer.problem columns).IsAlignment path) :
    path = [0, gap + 1] := by
  have hplace : ∀ (q : TextUnit) (j : Nat), (∃ c, columns[j]? = some c ∧
      (steepScorer.problem columns).accepts q c = true) →
      ('a' :: (List.replicate gap 'x' ++ ['b']))[j]? = some (steepScorer.query.compared q) := by
    rintro q j ⟨c, hc, hq⟩
    rw [← hcolumns, List.getElem?_map, hc, Query.unitMatches_iff.1 hq]; rfl
  obtain ⟨i, rest, hi, hrest, rfl⟩ := List.forall₂_cons_left_iff.1 h.matching
  obtain ⟨j, rest, hj, hnil, rfl⟩ := List.forall₂_cons_left_iff.1 hrest
  obtain rfl := List.forall₂_nil_left_iff.1 hnil
  rw [(eq_of_getElem?_gap (hplace _ i hi)).1 (by decide),
    (eq_of_getElem?_gap (hplace _ j hj)).2 (by decide)]

/-- From 262200 columns on the gap alone brings the worth down to the score that
    stands for no alignment. -/
theorem not_survives_gap (hp : (steepScorer.problem columns).Moderate)
    (hlong : 262200 ≤ gap) (hfits : gap ≤ 524286)
    (hsome : ∃ path, (steepScorer.problem columns).IsAlignment path) :
    ¬ (steepScorer.problem columns).Survives := by
  rintro (hwide | ⟨path, halign, hend⟩)
  · obtain ⟨first, last, hfirst, hlast⟩ := Alignment.exists_embeds_iff.1 hsome
    have hcells := hwide first last hfirst hlast
    rw [eq_of_isAlignment_gap hcolumns (Alignment.earliest_embeds _ hfirst),
      eq_of_isAlignment_gap hcolumns (Alignment.latest_embeds hlast)] at hcells
    change Alignment.maxCells < 2 * (gap + 1 - 0 + 1) at hcells
    rw [Alignment.maxCells] at hcells
    omega
  · rw [eq_of_isAlignment_gap hcolumns halign] at hend
    have hrun := hend [] 0 (gap + 1) [] rfl
    change Alignment.unreached <
      (steepScorer.problem columns).worth [⟨'a', 'a', 0, 1⟩] [0] + _ at hrun
    rw [Alignment.Problem.worth_singleton, Alignment.Problem.step, if_neg (by omega)] at hrun
    have hgain := hp.gainAt_le ⟨'a', 'a', 0, 1⟩ 0
    have hopen := hp.gapOpen.1
    have hcross := mul_nonneg
      (Int.natCast_nonneg ((steepScorer.problem columns).separators 0 (gap + 1)))
      hp.componentGap.1
    have hextend : (steepScorer.problem columns).prices.gapExtend = 4096 :=
      show (4096 : Int32).toInt = 4096 by decide
    rw [hextend, Alignment.unreached] at hrun
    omega

end Gap

theorem evaluate_of_long_gap {gap : Nat} (hlong : 262200 ≤ gap) (hfits : gap ≤ 524286) :
    ∃ fault, steepScorer.evaluate (steepScorer.candidate 0 (gapLine gap)) = .error fault := by
  have hvalid : steepScorer.weights.validate = .ok () := by decide
  have hquery : steepScorer.query.units ≠ [] := by decide
  obtain ⟨window, columns, hwindow, hcolumns, hp, hsome, hscore⟩ :=
    exists_columns_of_meets hvalid hquery (meets_gapLine gap) 0
  have hunits := (columnsOf_units hcolumns).trans (windowUnits_eq (isWindow_gapLine gap) hwindow)
  have hcompared : columns.map (steepScorer.query.compared ·.unit) =
      'a' :: (List.replicate gap 'x' ++ ['b']) := by
    have := congrArg (List.map steepScorer.query.compared) hunits
    rw [List.map_map] at this
    exact this.trans (compared_gapLine gap)
  have hlength := congrArg List.length hcompared
  simp only [List.length_map, List.length_cons, List.length_append, List.length_replicate,
    List.length_nil] at hlength
  exact evaluate_of_not_survives hp hquery hscore (not_survives_gap hcompared hp hlong hfits hsome)
    (by omega)

/-- The weights are valid and the line meets the criterion, but it has no
    result. -/
theorem evaluate_gapLine : steepScorer.weights.validate = .ok () ∧ steepScorer.query.units ≠ [] ∧
    steepScorer.Meets (gapLine 262200) ∧
    ∃ fault, steepScorer.evaluate (steepScorer.candidate 0 (gapLine 262200)) = .error fault :=
  ⟨by decide, by decide, meets_gapLine _, evaluate_of_long_gap le_rfl (by omega)⟩

end Scorer

end FuzzyPath
