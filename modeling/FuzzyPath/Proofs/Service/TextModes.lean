/-
  FuzzyPath — calls on ASCII lines in either text mode.

  * `Search.scan_reading` and `Search.run_reading`: a search among ASCII lines
    goes the same way in either mode;
  * `rankItems_unicode_eq_bytes`: a call has the same results, or the same error.
-/
import FuzzyPath.Proofs.Scoring.TextModes
import FuzzyPath.Proofs.Service.Calls

namespace FuzzyPath

/-! ## Searches -/

namespace Search

/-- The search for the query in another text mode. -/
def reading (s : Search) (mode : TextMode) : Search := { s with query := s.query.reading mode }

variable {s : Search} {mode : TextMode}

/-- ASCII lines are scanned in the same way in either mode. -/
theorem scan_reading : ∀ {lines : List String}, (∀ line ∈ lines, IsAscii line) →
    ∀ (scorer : Scorer) (top : TopK) (index : Nat),
      (s.reading mode).scan (scorer.reading mode) top index lines = s.scan scorer top index lines
  | [], _, _, _, _ => rfl
  | line :: lines, h, scorer, top, index => by
    obtain ⟨hline, hlines⟩ := List.forall_mem_cons.1 h
    let c := Candidate.ofLine index line s.query.matchMode s.context.style
    have hscore : (scorer.reading mode).score c =
        (scorer.score c).map (Prod.map id (·.reading mode)) := Scorer.score_reading hline
    have hline' : Candidate.ofLine index line (s.reading mode).query.matchMode
        (s.reading mode).context.style = c := rfl
    rw [scan, scan, hline', hscore]
    cases scorer.score c with
    | error fault => rfl
    | ok scored =>
      obtain ⟨score, scorer'⟩ := scored
      cases score with
      | none => exact scan_reading hlines scorer' top (index + 1)
      | some score =>
        have hpositions : (scorer'.reading mode).positions = scorer'.positions := rfl
        simp only [Except.map, Prod.map, id, hpositions, scan_reading hlines]

theorem scanPart_reading (hcurrent : ∀ file ∈ s.context.currentFile, IsAscii file)
    {part : Nat × List String} (h : ∀ line ∈ part.2, IsAscii line) :
    (s.reading mode).scanPart part = s.scanPart part := by
  have hnew : Scorer.new (s.reading mode).query (s.reading mode).weights (s.reading mode).context =
      (Scorer.new s.query s.weights s.context).reading mode :=
    Scorer.new_reading s.query s.weights hcurrent mode
  rw [scanPart, hnew]
  exact scan_reading h _ _ _

theorem mem_of_mem_parts {hardware : Nat} {items : List String} {part : Nat × List String}
    (hpart : part ∈ s.parts hardware items) {line : String} (hline : line ∈ part.2) :
    line ∈ items := by
  rw [← List.zipIdx_map_fst part.1 part.2, List.mem_map] at hline
  obtain ⟨place, hplace, rfl⟩ := hline
  have hitems : place ∈ items.zipIdx := by
    rw [← s.parts_zipIdx hardware items]
    exact List.mem_flatMap.2 ⟨part, hpart, hplace⟩
  rw [← List.zipIdx_map_fst 0 items]
  exact List.mem_map_of_mem hitems

/-- A search among ASCII lines goes the same way in either mode. -/
theorem run_reading (hcurrent : ∀ file ∈ s.context.currentFile, IsAscii file)
    {items : List String} (h : ∀ line ∈ items, IsAscii line) (mode : TextMode) (hardware : Nat) :
    (s.reading mode).run hardware items = s.run hardware items := by
  have hparts : (s.reading mode).parts hardware items = s.parts hardware items := rfl
  have hscan : (s.parts hardware items).mapM (s.reading mode).scanPart =
      (s.parts hardware items).mapM s.scanPart :=
    mapM_congr fun part hpart =>
      scanPart_reading hcurrent fun line hline => h line (mem_of_mem_parts hpart hline)
  rw [run, run, hparts, hscan]
  rfl

end Search

/-! ## Calls -/

section
variable {items : List String} {raw : String} {options : Options}

/-- With ASCII texts, a call has the same outcome whatever the Unicode switch says. -/
theorem rankItems_reading (hitems : ∀ line ∈ items, IsAscii line) (hraw : IsAscii raw)
    (hcurrent : IsAscii options.currentFile) (unicodeOn : Bool) (hardware : Nat) :
    rankItems hardware items raw { options with unicodeOn := unicodeOn } =
      rankItems hardware items raw options := by
  have hfile : ∀ file ∈ options.context.currentFile, IsAscii file := by
    intro file hfile
    rw [Options.context] at hfile
    split at hfile
    · cases hfile
    · obtain rfl := Option.some.inj hfile
      exact hcurrent
  have hparse : Query.parse raw { options with unicodeOn := unicodeOn }.querySettings =
      (Query.parse raw options.querySettings).map (·.reading (.ofSwitch unicodeOn)) :=
    Query.parse_reading hraw options.querySettings unicodeOn
  have hweights : ({ options with unicodeOn := unicodeOn } : Options).weights = options.weights :=
    rfl
  rw [rankItems_eq_match, rankItems_eq_match, hparse, hweights]
  cases options.weights.validate with
  | error err => rfl
  | ok valid =>
    cases Query.parse raw options.querySettings with
    | error err => rfl
    | ok query =>
      have hrun : ((options.search query).reading (.ofSwitch unicodeOn)).run hardware items =
          (options.search query).run hardware items :=
        Search.run_reading hfile hitems (.ofSwitch unicodeOn) hardware
      exact congrArg (Except.mapError _) hrun

/-- With ASCII lines, an ASCII query and an ASCII current file, a call has the same
    results when characters are compared as when bytes are, or the same error. -/
theorem rankItems_unicode_eq_bytes (hardware : Nat) (hitems : ∀ line ∈ items, IsAscii line)
    (hraw : IsAscii raw) (hcurrent : IsAscii options.currentFile) :
    rankItems hardware items raw { options with unicodeOn := true } =
      rankItems hardware items raw { options with unicodeOn := false } := by
  rw [rankItems_reading hitems hraw hcurrent true, rankItems_reading hitems hraw hcurrent false]

/-- Options for paths, beside the current file `a/FooBar.rs`. -/
def besideOptions : Options :=
  { Options.standard with isPath := true, currentFile := "a/FooBar.rs", delimiter := "!" }

theorem rankItems_unicode_eq_bytes_fB :
    (∀ line ∈ ["b/fooBaz.rs"], IsAscii line) ∧ IsAscii "fB!zz" ∧
      IsAscii besideOptions.currentFile ∧
      rankItems 4 ["b/fooBaz.rs"] "fB!zz" { besideOptions with unicodeOn := true } =
        .ok [⟨73410, 0, [2, 5]⟩] := by
  have hitems : ∀ line ∈ ["b/fooBaz.rs"], IsAscii line := by decide
  have hraw : IsAscii "fB!zz" := by decide
  have hcurrent : IsAscii besideOptions.currentFile := by decide
  refine ⟨hitems, hraw, hcurrent, ?_⟩
  rw [rankItems_unicode_eq_bytes 4 hitems hraw hcurrent]
  decide +kernel

end

end FuzzyPath
