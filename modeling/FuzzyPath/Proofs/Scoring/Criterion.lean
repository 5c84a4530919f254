/-
  FuzzyPath — which lines match.

  * `Scorer.IsWindow` says which part of a line the query is matched on, and
    `Scorer.Meets` what a line that matches is;
  * `window_of_isWindow` and `exists_isWindow`: this is the window whose units
    are aligned;
  * `score_of_admits` is the score of a candidate that is not dropped at once;
  * `score_isSome_iff`: exactly the lines that meet the criterion get a score.
-/
import FuzzyPath.Proofs.Alignment.Outcome
import FuzzyPath.Proofs.Path.Filename
import FuzzyPath.Proofs.Query.MatchKey
import FuzzyPath.Proofs.Scoring.Columns

namespace FuzzyPath

theorem occursIn_iff {needle : List UInt8} : ∀ {bytes : List UInt8},
    occursIn needle bytes = true ↔ needle <:+: bytes
  | [] => by rw [occursIn, List.isEmpty_iff, List.infix_nil]
  | b :: bytes => by
    rw [occursIn, Bool.or_eq_true, List.isPrefixOf_iff_prefix, occursIn_iff, List.infix_cons_iff]

namespace Query

/-- What is compared of a unit. -/
def compared (q : Query) (u : TextUnit) : Char := if q.caseSensitive then u.ch else u.folded

theorem unitMatches_iff {q : Query} {u v : TextUnit} :
    Alignment.unitMatches q.caseSensitive u v = true ↔ q.compared u = q.compared v := by
  rw [Alignment.unitMatches, compared, compared]
  split <;> simp

/-- A typed query has units exactly if it has text to be matched. -/
theorem units_eq_nil_iff {raw : String} {settings : QuerySettings} {q : Query}
    (h : parse raw settings = .ok q) : q.units = [] ↔ q.text = "" := by
  rw [parse] at h
  cases hkind : keyKindOf settings with
  | error e => rw [hkind] at h; cases h
  | ok kind =>
    rw [hkind] at h
    obtain rfl := Except.ok.inj h
    exact TextMode.decode_eq_nil_iff

end Query

namespace Scorer

/-- A line as a candidate for the query. -/
def candidate (s : Scorer) (index : Nat) (line : String) : Candidate :=
  .ofLine index line s.query.matchMode s.context.style

/-! ## The window -/

/-- `text` is the part of a line that the query is matched on, and stands after
    `front`: the key, or the file name in it. -/
def IsWindow (s : Scorer) (line front text : String) : Prop :=
  ∃ key, s.query.matchMode.IsKey line key ∧
    match s.query.keyKind with
    | .filename => Path.IsFilename s.context.style key front text
    | .plain | .path => front = "" ∧ key = text

variable {s : Scorer} {line : String}

theorem key_candidate {key : String} (h : s.query.matchMode.IsKey line key) (index : Nat) :
    (s.candidate index line).key = key := h.slice_eq

/-- The units of the window are those of the text that the query is matched
    on. -/
theorem window_of_isWindow {front text : String} (h : s.IsWindow line front text) (index : Nat) :
    ∃ window, s.window (s.candidate index line) = some window ∧
      s.windowUnits (s.candidate index line) window =
        s.query.textMode.decode text front.utf8ByteSize := by
  obtain ⟨key, hkey, hwindow⟩ := h
  have hspan : (s.candidate index line).keySpan = ⟨0, key.utf8ByteSize⟩ :=
    MatchMode.key_of_isKey hkey
  have hplain : (⟨0, (s.candidate index line).keySpan.length⟩ : Span) = ⟨0, key.utf8ByteSize⟩ := by
    rw [hspan]; rfl
  simp only [windowUnits, window, Candidate.components, key_candidate hkey, hplain]
  cases hkind : s.query.keyKind with
  | filename =>
    rw [hkind] at hwindow
    have hlast := Path.getLast?_components hwindow
    obtain ⟨back, rfl, -⟩ := hwindow
    exact ⟨_, hlast, by rw [Span.slice_append, hspan, Nat.zero_add]⟩
  | plain | path =>
    rw [hkind] at hwindow
    obtain ⟨rfl, rfl⟩ := hwindow
    exact ⟨_, rfl, by rw [Span.slice_all, hspan]; rfl⟩

/-- Where there is a window, it is that of some text. -/
theorem exists_isWindow {index : Nat} {window : Span}
    (h : s.window (s.candidate index line) = some window) :
    ∃ front text, s.IsWindow line front text := by
  obtain ⟨key, hkey⟩ := s.query.matchMode.exists_isKey line
  simp only [Scorer.window, Candidate.components, key_candidate hkey] at h
  cases hkind : s.query.keyKind with
  | filename =>
    rcases Path.exists_isFilename s.context.style key with ⟨front, name, hname⟩ | hnone
    · exact ⟨front, name, key, hkey, by rw [hkind]; exact hname⟩
    · rw [hkind] at h
      simp only [candidate, Candidate.ofLine, hnone, List.getLast?_nil] at h
      cases h
  | plain | path => exact ⟨"", key, key, hkey, by rw [hkind]; exact ⟨rfl, rfl⟩⟩

theorem windowUnits_eq {front text : String} (h : s.IsWindow line front text) {index : Nat}
    {window : Span} (hwindow : s.window (s.candidate index line) = some window) :
    s.windowUnits (s.candidate index line) window =
      s.query.textMode.decode text front.utf8ByteSize := by
  obtain ⟨window', hsome, hunits⟩ := window_of_isWindow h index
  obtain rfl : window = window' := Option.some.inj (hwindow.symm.trans hsome)
  exact hunits

/-- The query can be aligned with the columns exactly if it is a subsequence of
    the units. -/
theorem exists_isAlignment_iff {c : Candidate} {window : Span} {columns : List Alignment.Column}
    (h : s.columnsOf c window = .ok columns) : (∃ path, (s.problem columns).IsAlignment path) ↔
      (s.query.units.map s.query.compared).Sublist
        ((s.windowUnits c window).map s.query.compared) := by
  have haccepts : ∀ (q : TextUnit) (c : Alignment.Column), (s.problem columns).accepts q c = true ↔
      s.query.compared q = (s.query.compared ∘ (·.unit)) c := fun q c => Query.unitMatches_iff
  rw [← columnsOf_units h, List.map_map]
  exact Alignment.exists_embeds_iff_sublist haccepts columns s.query.units

/-! ## The criterion -/

/-- Whether a candidate is not dropped at once. -/
def Admits (s : Scorer) (c : Candidate) : Prop :=
  s.isExcluded c = false ∧ (s.isCurrent c = true → s.context.matchCurrent = true)

/-- What a line that matches is. -/
structure Meets (s : Scorer) (line : String) : Prop where
  included : ∀ text ∈ s.query.excluded, ¬ utf8 text <:+: utf8 line
  allowed : s.context.currentFile = some line → s.context.matchCurrent = true
  /-- The query is empty, or a subsequence of the window. -/
  covers : s.query.units = [] ∨ ∃ front text, s.IsWindow line front text ∧
    (s.query.units.map s.query.compared).Sublist
      ((s.query.textMode.decode text front.utf8ByteSize).map s.query.compared)

theorem admits_iff (s : Scorer) (index : Nat) (line : String) : s.Admits (s.candidate index line) ↔
    (∀ text ∈ s.query.excluded, ¬ utf8 text <:+: utf8 line) ∧
      (s.context.currentFile = some line → s.context.matchCurrent = true) := by
  rw [Admits, isExcluded, isCurrent]
  simp only [List.any_eq_false, occursIn_iff, beq_iff_eq]
  rfl

theorem Meets.admits (h : s.Meets line) (index : Nat) : s.Admits (s.candidate index line) :=
  (s.admits_iff index line).2 ⟨h.included, h.allowed⟩

/-- A candidate that is dropped has no score. -/
theorem score_of_not_admits {c : Candidate} (h : ¬ s.Admits c) :
    s.score c = .ok (none, { s with path := [] }) := by
  rw [score]
  by_cases hex : s.isExcluded c = true
  · exact if_pos hex
  · have hcurrent : (s.isCurrent c && !s.context.matchCurrent) = true := by
      by_contra hcurrent
      refine h ⟨by simpa using hex, fun hc => ?_⟩
      simpa [hc] using hcurrent
    rw [if_neg hex, if_pos hcurrent]

/-- What an alignment comes to: the score, and the scorer that keeps it. -/
def outcome (s : Scorer) (c : Candidate) (columns : List Alignment.Column) :
    Option Alignment.Solution → Option Int × Scorer
  | none => (none, { s with columns := columns.toArray, path := [] })
  | some sol =>
    (some (s.penalized c (s.adjusted c sol.score (columns.length - s.query.units.length))),
      { s with columns := columns.toArray, path := sol.path })

theorem outcome_isSome (c : Candidate) (columns : List Alignment.Column)
    (result : Option Alignment.Solution) :
    (s.outcome c columns result).1.isSome = result.isSome := by
  cases result <;> rfl

/-- The score of all others. -/
theorem score_of_admits {c : Candidate} (h : s.Admits c) : s.score c =
    if s.query.isEmpty then .ok (some (s.penalized c 0), { s with path := [] })
    else match s.window c with
      | none => .ok (none, { s with path := [] })
      | some window => (s.columnsOf c window).bind fun columns =>
          (Alignment.solve (s.problem columns)).map (s.outcome c columns) := by
  obtain ⟨hex, hcurrent⟩ := h
  have hcurrent' : ¬ (s.isCurrent c && !s.context.matchCurrent) = true := by
    simpa using hcurrent
  rw [score, if_neg (by simp [hex]), if_neg hcurrent']
  congr 1
  cases hwindow : s.window c with
  | none => rfl
  | some window =>
    simp only [problem, bind, Except.bind]
    cases s.columnsOf c window with
    | error fault => rfl
    | ok columns =>
      simp only
      generalize Alignment.solve _ = result
      cases result with
      | error fault => rfl
      | ok result => cases result <;> rfl

/-- A query without units matches every candidate that is not dropped. -/
theorem score_of_empty {c : Candidate} (h : s.Admits c) (hquery : s.query.units = []) :
    s.score c = .ok (some (s.penalized c 0), { s with path := [] }) := by
  rw [score_of_admits h, if_pos (by simp [Query.isEmpty, hquery])]

/-- With standard weights the columns of a candidate are solved, by an alignment if
    there is one, as long as 32 bits hold them. -/
theorem exists_solve_of_standard (hweights : s.weights = .standard) (hquery : s.query.units ≠ [])
    {c : Candidate} {window : Span} (hwindow : s.window c = some window)
    (hsize : s.Addressable c) : ∃ columns result, s.columnsOf c window = .ok columns ∧
      Alignment.solve (s.problem columns) = .ok result ∧
      ∀ sol, result = some sol → (s.problem columns).IsAlignment sol.path := by
  have hvalid : s.weights.validate = .ok () := hweights ▸ Weights.validate_standard
  obtain ⟨columns, hcolumns, hp⟩ := columnsOf_valid hvalid c window
  by_cases hsome : ∃ path, (s.problem columns).IsAlignment path
  · obtain ⟨hopen, hpass⟩ := gap_le_of_standard hweights columns
    have hfits : (s.problem columns).columns.size < 2 ^ 32 :=
      (length_columns hcolumns).trans_lt (hsize window hwindow)
    obtain ⟨sol, hsol, halign⟩ := Alignment.exists_solve_of_survives hp hquery hfits
      (Alignment.survives_of_gap_le hp hquery hopen hpass) hsome
    exact ⟨columns, _, hcolumns, hsol, fun _ h => Option.some.inj h ▸ halign⟩
  · exact ⟨columns, _, hcolumns, Alignment.solve_eq_none_iff.2 hsome, fun _ h => by cases h⟩

/-- With standard weights every candidate is scored, or found not to match, as
    long as 32 bits hold its columns. -/
theorem exists_score_of_standard (hweights : s.weights = .standard) {c : Candidate}
    (hsize : s.Addressable c) : ∃ result, s.score c = .ok result := by
  by_cases h : s.Admits c
  · rw [score_of_admits h]
    split
    · exact ⟨_, rfl⟩
    · rename_i hempty
      cases hwindow : s.window c with
      | none => exact ⟨_, rfl⟩
      | some window =>
        obtain ⟨columns, result, hcolumns, hsolve, -⟩ := exists_solve_of_standard hweights
          (by simpa [Query.isEmpty] using hempty) hwindow hsize
        refine ⟨s.outcome c columns result, ?_⟩
        simp only [hcolumns, Except.bind, hsolve, Except.map]
  · exact ⟨_, score_of_not_admits h⟩

/-- Whether an aligned candidate has a score depends on the units of its window
    only. -/
theorem isSome_iff_of_window {c : Candidate} {window : Span} {r : Option Int} {s' : Scorer}
    (hscore : ((s.columnsOf c window).bind fun columns =>
      (Alignment.solve (s.problem columns)).map (s.outcome c columns)) = .ok (r, s')) :
    r.isSome = true ↔ (s.query.units.map s.query.compared).Sublist
      ((s.windowUnits c window).map s.query.compared) := by
  obtain ⟨columns, hcolumns, hscore⟩ := bind_eq_ok hscore
  obtain ⟨result, hsolve, hout⟩ := map_eq_ok hscore
  rw [← exists_isAlignment_iff hcolumns, ← Alignment.solve_isSome_iff hsolve,
    ← s.outcome_isSome c columns result, hout]

/-- A line that is not dropped has a score exactly if its window covers the
    query. -/
theorem isSome_iff_covers {index : Nat} (hadmits : s.Admits (s.candidate index line))
    (hquery : s.query.units ≠ []) {r : Option Int} {s' : Scorer}
    (hscore : s.score (s.candidate index line) = .ok (r, s')) :
    r.isSome = true ↔ ∃ front text, s.IsWindow line front text ∧
      (s.query.units.map s.query.compared).Sublist
        ((s.query.textMode.decode text front.utf8ByteSize).map s.query.compared) := by
  rw [score_of_admits hadmits, if_neg (by simpa [Query.isEmpty] using hquery)] at hscore
  cases hwindow : s.window (s.candidate index line) with
  | none =>
    rw [hwindow] at hscore
    obtain ⟨rfl, -⟩ := Prod.mk.inj (Except.ok.inj hscore)
    refine ⟨fun h => (by cases h), ?_⟩
    rintro ⟨front, text, htext, -⟩
    obtain ⟨window, hsome, -⟩ := window_of_isWindow htext index
    cases hwindow.symm.trans hsome
  | some window =>
    rw [hwindow] at hscore
    rw [isSome_iff_of_window hscore]
    constructor
    · intro hsub
      obtain ⟨front, text, htext⟩ := exists_isWindow hwindow
      exact ⟨front, text, htext, windowUnits_eq htext hwindow ▸ hsub⟩
    · rintro ⟨front, text, htext, hsub⟩
      rwa [windowUnits_eq htext hwindow]

/-- Exactly the lines that meet the criterion have a score, whichever way they
    are aligned; with the standard weights, scoring never fails as long as 32 bits
    hold the columns. -/
theorem score_isSome_iff {raw : String} {settings : QuerySettings} {s : Scorer}
    (hparse : Query.parse raw settings = .ok s.query) (index : Nat) (line : String) :
    (s.query.units = [] ↔ s.query.text = "") ∧
      (s.weights = .standard →
        s.Addressable (.ofLine index line s.query.matchMode s.context.style) → ∃ result,
          s.score (.ofLine index line s.query.matchMode s.context.style) = .ok result) ∧
      ∀ r s', s.score (.ofLine index line s.query.matchMode s.context.style) = .ok (r, s') →
        (r.isSome = true ↔ s.Meets line) := by
  refine ⟨Query.units_eq_nil_iff hparse,
    fun hweights hsize => exists_score_of_standard hweights hsize, fun r s' hscore => ?_⟩
  change s.score (s.candidate index line) = _ at hscore
  by_cases hadmits : s.Admits (s.candidate index line)
  · obtain ⟨hincluded, hallowed⟩ := (s.admits_iff index line).1 hadmits
    by_cases hquery : s.query.units = []
    · rw [score_of_admits hadmits, Query.isEmpty, hquery] at hscore
      obtain ⟨rfl, -⟩ := Prod.mk.inj (Except.ok.inj hscore)
      exact ⟨fun _ => ⟨hincluded, hallowed, Or.inl hquery⟩, fun _ => rfl⟩
    · rw [isSome_iff_covers hadmits hquery hscore]
      exact ⟨fun hcovers => ⟨hincluded, hallowed, Or.inr hcovers⟩,
        fun hmeets => hmeets.covers.resolve_left hquery⟩
  · rw [score_of_not_admits hadmits] at hscore
    obtain ⟨rfl, -⟩ := Prod.mk.inj (Except.ok.inj hscore)
    refine ⟨fun h => (by cases h), fun hmeets => ?_⟩
    exact absurd (hmeets.admits index) hadmits

/-- A scorer of the query `ab!zz` on file names. -/
def scorerOfNames : Scorer :=
  .new { queryAb with excluded := ["zz"], matchMode := .filenameOnly, keyKind := .filename }
    .standard ⟨none, false, .unix⟩

theorem meets_directory_axb :
    Query.parse "ab!zz" ⟨.filenameOnly, true, false, true, "!"⟩ = .ok scorerOfNames.query ∧
      scorerOfNames.Meets "d/axb/" := by
  have hparse : Query.parse "ab!zz" ⟨.filenameOnly, true, false, true, "!"⟩ =
      .ok scorerOfNames.query := by decide
  obtain ⟨-, hscored, hiff⟩ := score_isSome_iff hparse 0 "d/axb/"
  have hsize : "d/axb/".utf8ByteSize = 6 := by decide +kernel
  obtain ⟨⟨r, s'⟩, hscore⟩ := hscored rfl
    (addressable_of_size_lt _ (by rw [hsize]; decide) _ _ _)
  have hsome : (scorerOfNames.score (.ofLine 0 "d/axb/" scorerOfNames.query.matchMode
      scorerOfNames.context.style)).toOption.any (·.1.isSome) = true := by decide +kernel
  rw [hscore] at hsome
  exact ⟨hparse, (hiff r s' hscore).1 hsome⟩

end Scorer

end FuzzyPath
