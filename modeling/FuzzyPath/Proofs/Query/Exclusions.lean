/-
  FuzzyPath — typed queries and their parts.

  * `split_eq_iff`: a query is split at its delimiters into the text to be matched
    and the excluded texts, which are the other pieces less the empty ones;
  * `Query.excluding` is a query with other excluded texts;
  * `parse_eq_map`: the excluded texts have no part in how the text to be matched
    is analysed.
-/
import FuzzyPath.Query.Parse

namespace FuzzyPath

/-! ## Pieces -/

theorem not_mem_of_mem_splitOn {α : Type} [DecidableEq α] {a : α} {l : List α} :
    ∀ piece ∈ l.splitOn a, a ∉ piece := by
  induction l with
  | nil => simp [List.splitOn_nil]
  | cons x l ih =>
    rw [List.splitOn_cons_eq_if_modifyHead]
    by_cases hx : x = a
    · simpa [hx] using ih
    · obtain ⟨piece, pieces, hpieces⟩ := List.exists_cons_of_ne_nil (List.splitOn_ne_nil a l)
      rw [hpieces, List.forall_mem_cons] at ih
      simpa [hx, hpieces, Ne.symm hx] using ih

theorem segmentsFrom_eq (delim : Char) (cs : List Char) : ∀ (current : List Char)
    (found : List String), segmentsFrom delim current found cs =
      found.reverse ++ (cs.splitOnPPrepend (· == delim) current).map String.ofList := by
  induction cs with
  | nil => simp [segmentsFrom]
  | cons c cs ih =>
    intro current found
    by_cases hc : c = delim
    · rw [segmentsFrom, if_pos hc, ih, List.splitOnPPrepend_cons_pos (by simpa using hc)]
      simp
    · rw [segmentsFrom, if_neg hc, ih, List.splitOnPPrepend_cons_neg (by simpa using hc)]

theorem segments_eq_splitOn (delim : Char) (text : String) :
    segments delim text = (text.toList.splitOn delim).map String.ofList :=
  segmentsFrom_eq delim text.toList [] []

namespace Query

/-- The query with other excluded texts. -/
def excluding (q : Query) (texts : List String) : Query := { q with excluded := texts }

variable {raw positive delimiter : String} {delim : Char} {excluded : List String}

/-! ## Splitting -/

/-- The segments of a text are what delimiters are put between to get it. -/
theorem segments_eq_iff {pieces : List String} (hdelim : delimiter.toList = [delim])
    (hpieces : pieces ≠ []) : segments delim raw = pieces ↔
      raw = delimiter.intercalate pieces ∧ ∀ piece ∈ pieces, delim ∉ piece.toList := by
  rw [segments_eq_splitOn, ← String.toList_inj, String.toList_intercalate, hdelim]
  constructor
  · intro h
    have hsplit : raw.toList.splitOn delim = pieces.map String.toList := by
      rw [← h, List.map_map]
      simp [Function.comp_def]
    refine ⟨by rw [← hsplit, List.intercalate_splitOn], fun piece hpiece => ?_⟩
    have hmem : piece.toList ∈ raw.toList.splitOn delim := by
      rw [hsplit]
      exact List.mem_map_of_mem hpiece
    exact not_mem_of_mem_splitOn piece.toList hmem
  · rintro ⟨hraw, hfree⟩
    rw [hraw, List.splitOn_intercalate delim (by simpa using hfree) (by simpa using hpieces),
      List.map_map]
    simp [Function.comp_def]

theorem segments_ne_nil (delim : Char) (raw : String) : segments delim raw ≠ [] := by
  rw [segments_eq_splitOn]
  simp

/-- A query is the text to be matched and some pieces, with delimiters between
    them; the pieces that are not empty are excluded. -/
theorem split_eq_iff (hdelim : delimiter.toList = [delim]) :
    split raw delimiter = (positive, excluded) ↔
      ∃ pieces, raw = delimiter.intercalate (positive :: pieces) ∧
        (∀ piece ∈ positive :: pieces, delim ∉ piece.toList) ∧
        excluded = pieces.filter (· != "") := by
  have hsegments (pieces : List String) : segments delim raw = positive :: pieces ↔ _ :=
    segments_eq_iff hdelim (List.cons_ne_nil positive pieces)
  simp only [← and_assoc, ← hsegments]
  rw [split, hdelim]
  obtain ⟨first, rest, heq⟩ := List.exists_cons_of_ne_nil (segments_ne_nil delim raw)
  simp only [heq, Prod.mk.injEq, List.cons.injEq]
  constructor
  · rintro ⟨rfl, rfl⟩
    exact ⟨rest, ⟨rfl, rfl⟩, rfl⟩
  · rintro ⟨pieces, ⟨rfl, rfl⟩, rfl⟩
    exact ⟨rfl, rfl⟩

/-- The text to be matched excludes nothing. -/
theorem split_positive (hdelim : delimiter.toList = [delim])
    (h : split raw delimiter = (positive, excluded)) :
    split positive delimiter = (positive, []) := by
  obtain ⟨pieces, -, hfree, -⟩ := (split_eq_iff hdelim).1 h
  rw [split_eq_iff hdelim]
  refine ⟨[], ?_, ?_, rfl⟩
  · rw [String.intercalate_singleton]
  · rw [List.forall_mem_singleton]
    exact hfree positive List.mem_cons_self

/-! ## Analysis -/

variable {settings : QuerySettings} {q : Query}

theorem parse_excluded (h : parse raw settings = .ok q) :
    q.excluded = (split raw settings.delimiter).2 := by
  rw [parse] at h
  cases hkind : keyKindOf settings with
  | error err =>
    rw [hkind] at h
    cases h
  | ok kind =>
    rw [hkind] at h
    obtain rfl := Except.ok.inj h
    rfl

/-- The excluded texts have no part in the analysis of the text to be matched. -/
theorem parse_eq_map (hdelim : settings.delimiter.toList = [delim])
    (h : split raw settings.delimiter = (positive, excluded)) :
    parse raw settings = (parse positive settings).map (·.excluding excluded) := by
  rw [parse, parse, h, split_positive hdelim h]
  cases keyKindOf settings with
  | error err => rfl
  | ok kind => rfl

end Query

end FuzzyPath
