/-
  FuzzyPath — excluded texts only take results away.

  * `Search.result_excluding` and `Search.run_excluding`: a search with excluded
    texts has the results of the search without them, less those whose lines
    mention one;
  * `rankItems_exclusions`: so has a call, compared with the call for the text
    that stands before the first delimiter.
-/
import FuzzyPath.Proofs.Scoring.Exclusions
import FuzzyPath.Proofs.Service.Calls

namespace FuzzyPath

namespace Ranked

/-- The line of a result mentions none of some texts. -/
def avoids (items texts : List String) (r : Ranked) : Bool :=
  items[r.index]?.all fun line => !decide (Mentions line texts)

variable {items texts texts' : List String} {r : Ranked}

theorem avoids_iff : r.avoids items texts = true ↔
    ∀ line, items[r.index]? = some line → ¬ Mentions line texts := by
  simp [avoids, Option.all_eq_true]

theorem avoids_of_subset (hsub : texts ⊆ texts') (h : r.avoids items texts' = true) :
    r.avoids items texts = true := by
  rw [avoids_iff] at h ⊢
  exact fun line hline hmentions => h line hline (hmentions.mono hsub)

/-- With more excluded texts, further results are left out. -/
theorem filter_avoids_of_subset (hsub : texts ⊆ texts') (results : List Ranked) :
    (results.filter (avoids items texts)).filter (avoids items texts') =
      results.filter (avoids items texts') := by
  rw [List.filter_filter]
  refine List.filter_congr fun r _ => ?_
  rw [Bool.and_eq_left_iff_imp]
  exact avoids_of_subset hsub

/-- Only the set of the excluded texts counts. -/
theorem avoids_congr (hsub : texts ⊆ texts') (hsub' : texts' ⊆ texts) :
    avoids items texts' = avoids items texts := by
  funext r
  rw [Bool.eq_iff_iff]
  exact ⟨avoids_of_subset hsub, avoids_of_subset hsub'⟩

end Ranked

/-! ## Searches -/

namespace Search

/-- The search with other excluded texts. -/
def excluding (s : Search) (texts : List String) : Search :=
  { s with query := s.query.excluding texts }

variable {s : Search} {items texts : List String}

theorem result_eq_map (s : Search) (line : String × Nat) : s.result line =
    (((Scorer.new s.query s.weights s.context).evaluate
      (.ofLine line.2 line.1 s.query.matchMode s.context.style)).map Prod.fst).map
        (·.map fun m => ⟨m.score, line.2, m.positions⟩) := by
  rw [result]
  cases (Scorer.new s.query s.weights s.context).evaluate _ <;> rfl

/-- A line that mentions an excluded text has no result; any other line has the
    result that it has without excluded texts. -/
theorem result_excluding (hs : s.query.excluded = []) (line : String × Nat) :
    (s.excluding texts).result line = if Mentions line.1 texts then .ok none else s.result line := by
  let c := Candidate.ofLine line.2 line.1 s.query.matchMode s.context.style
  have hnew : Scorer.new (s.excluding texts).query (s.excluding texts).weights
      (s.excluding texts).context = (Scorer.new s.query s.weights s.context).excluding texts :=
    Scorer.new_excluding s.query s.weights s.context texts
  have hline : Candidate.ofLine line.2 line.1 (s.excluding texts).query.matchMode
      (s.excluding texts).context.style = c := rfl
  rw [result_eq_map, result_eq_map s, hnew, hline]
  by_cases h : Mentions line.1 texts
  · have hmentions : Mentions c.text texts := h
    rw [if_pos h, Scorer.evaluate_of_mentions hmentions]
    rfl
  · have hmentions : ¬ Mentions c.text texts := h
    have hnone : (Scorer.new s.query s.weights s.context).isExcluded c = false := by
      change (s.query.excluded.any _) = false
      rw [hs, List.any_nil]
    rw [if_neg h, Scorer.evaluate_of_not_mentions hnone hmentions]

theorem avoids_of_found {line : String × Nat} {r : Ranked} (hline : line ∈ items.zipIdx)
    (h : s.found line = some r) : r.avoids items texts = !decide (Mentions line.1 texts) := by
  rw [Ranked.avoids, index_of_found h, List.mem_zipIdx_iff_getElem?.1 hline, Option.all_some]

theorem found_excluding (hs : s.query.excluded = []) {line : String × Nat}
    (hline : line ∈ items.zipIdx) :
    (s.excluding texts).found line = (s.found line).filter (Ranked.avoids items texts) := by
  rw [found, result_excluding hs]
  by_cases h : Mentions line.1 texts
  · rw [if_pos h]
    cases hfound : s.found line with
    | none => rfl
    | some r => rw [Option.filter_some_neg (by simpa [avoids_of_found hline hfound] using h)]
  · rw [if_neg h]
    change s.found line = _
    cases hfound : s.found line with
    | none => rfl
    | some r => rw [Option.filter_some_pos (by simpa [avoids_of_found hline hfound] using h)]

/-- All results of a search, less those whose lines mention an excluded text. -/
theorem run_excluding (hs : s.query.excluded = []) (hlimit : s.limit = 0)
    (halone : ∀ line ∈ items.zipIdx, ∃ found, s.result line = .ok found) (hardware : Nat) :
    (s.excluding texts).run hardware items =
      (s.run hardware items).map (List.filter (Ranked.avoids items texts)) := by
  have halone' : ∀ line ∈ items.zipIdx, ∃ found, (s.excluding texts).result line = .ok found := by
    intro line hline
    rw [result_excluding hs]
    split
    · exact ⟨none, rfl⟩
    · exact halone line hline
  have hfound : items.zipIdx.filterMap (s.excluding texts).found =
      (items.zipIdx.filterMap s.found).filter (Ranked.avoids items texts) := by
    rw [List.filter_filterMap]
    exact List.filterMap_congr fun line hline => found_excluding hs hline
  have hlimit' : (s.excluding texts).limit = 0 := hlimit
  have hbest (l : List Ranked) : Ranked.best 0 l = Ranked.sort l := rfl
  rw [run_eq_best halone, run_eq_best halone', hlimit, hlimit', hbest, hbest, hfound,
    Ranked.sort_filter (Ranked.distinctKeys_of_nodup (nodup_found s items))]
  rfl

end Search

/-! ## Calls -/

section
variable {items : List String} {options : Options} {delim : Char}
  {raw positive : String} {excluded : List String}

/-- The results of a call are those of the call without excluded texts, less those
    whose lines mention one. -/
theorem rankItems_of_split (hardware : Nat) (hdelim : options.delimiter.toList = [delim])
    (hlimit : options.limit = 0) (hsplit : Query.split raw options.delimiter = (positive, excluded))
    (hsound : ∀ query, Query.parse positive options.querySettings = .ok query →
      ∀ i line, items[i]? = some line →
        ∃ found, (options.search query).result (line, i) = .ok found) :
    rankItems hardware items raw options =
      (rankItems hardware items positive options).map (List.filter (Ranked.avoids items excluded)) := by
  have hparse : Query.parse raw options.querySettings =
      (Query.parse positive options.querySettings).map (·.excluding excluded) :=
    Query.parse_eq_map hdelim hsplit
  rw [rankItems_eq_match, rankItems_eq_match, hparse]
  cases options.weights.validate with
  | error err => rfl
  | ok valid =>
    cases hpositive : Query.parse positive options.querySettings with
    | error err => rfl
    | ok query =>
      have hnone : query.excluded = [] := by
        have hparts := Query.split_positive hdelim hsplit
        rw [Query.parse_excluded hpositive]
        exact congrArg Prod.snd hparts
      have hzero : (options.search query).limit = 0 := by
        rw [Options.search, hlimit]
        rfl
      have halone : ∀ line ∈ items.zipIdx, ∃ found, (options.search query).result line = .ok found :=
        fun line hline => hsound query hpositive line.2 line.1
          (List.mem_zipIdx_iff_getElem?.1 hline)
      have hrun : (options.search (query.excluding excluded)).run hardware items = _ :=
        Search.run_excluding hnone hzero halone hardware
      simp only [Except.map, hrun]
      cases (options.search query).run hardware items <;> rfl

/-- Excluded texts are a filter on the results of a call, and only the set of
    them counts: with more of them, results go and the others stay as they are. -/
theorem rankItems_exclusions (hardware : Nat) (hdelim : options.delimiter.toList = [delim])
    (hlimit : options.limit = 0) (hsplit : Query.split raw options.delimiter = (positive, excluded))
    (hsound : ∀ query, Query.parse positive options.querySettings = .ok query →
      ∀ i line, items[i]? = some line →
        ∃ found, (options.search query).result (line, i) = .ok found) :
    (∃ pieces, raw = options.delimiter.intercalate (positive :: pieces) ∧
      (∀ piece ∈ positive :: pieces, delim ∉ piece.toList) ∧
      excluded = pieces.filter (· != "")) ∧
    rankItems hardware items raw options =
      (rankItems hardware items positive options).map (List.filter (Ranked.avoids items excluded)) ∧
    ∀ raw' excluded', Query.split raw' options.delimiter = (positive, excluded') →
      excluded ⊆ excluded' →
        rankItems hardware items raw' options =
          (rankItems hardware items raw options).map
            (List.filter (Ranked.avoids items excluded')) ∧
        (excluded' ⊆ excluded →
          rankItems hardware items raw' options = rankItems hardware items raw options) := by
  have hraw := rankItems_of_split hardware hdelim hlimit hsplit hsound
  refine ⟨(Query.split_eq_iff hdelim).1 hsplit, hraw, fun raw' excluded' hsplit' hsub => ?_⟩
  have hraw' := rankItems_of_split hardware hdelim hlimit hsplit' hsound
  rw [hraw, hraw']
  constructor
  · cases rankItems hardware items positive options with
    | error err => rfl
    | ok results =>
      exact congrArg Except.ok (Ranked.filter_avoids_of_subset hsub results).symm
  · intro hsub'
    rw [Ranked.avoids_congr hsub hsub']

/-- The standard options, with exclamation marks before the excluded texts. -/
def markOptions : Options := { Options.standard with delimiter := "!" }

theorem rankItems_exclusions_ab :
    (∀ i line, ["axb", "zz", "ab"][i]? = some line →
      ∃ found, (markOptions.search Scorer.queryAb).result (line, i) = .ok found) ∧
    rankItems 1 ["axb", "zz", "ab"] "ab!x" markOptions =
      (rankItems 1 ["axb", "zz", "ab"] "ab" markOptions).map
        (List.filter (Ranked.avoids ["axb", "zz", "ab"] ["x"])) ∧
    rankItems 1 ["axb", "zz", "ab"] "ab!!x!x" markOptions =
      rankItems 1 ["axb", "zz", "ab"] "ab!x" markOptions := by
  have hparse : Query.parse "ab" markOptions.querySettings = .ok Scorer.queryAb := by decide
  have haxb : ∃ found, (markOptions.search Scorer.queryAb).result ("axb", 0) = .ok found :=
    ⟨some ⟨43658, 0, [0, 2]⟩, by decide +kernel⟩
  have hzz : ∃ found, (markOptions.search Scorer.queryAb).result ("zz", 1) = .ok found :=
    ⟨none, by decide +kernel⟩
  have hab : ∃ found, (markOptions.search Scorer.queryAb).result ("ab", 2) = .ok found :=
    ⟨some ⟨58000, 2, [0, 1]⟩, by decide +kernel⟩
  have halone : ∀ i line, ["axb", "zz", "ab"][i]? = some line →
      ∃ found, (markOptions.search Scorer.queryAb).result (line, i) = .ok found := by
    intro i line hline
    match i with
    | 0 => obtain rfl := Option.some.inj hline; exact haxb
    | 1 => obtain rfl := Option.some.inj hline; exact hzz
    | 2 => obtain rfl := Option.some.inj hline; exact hab
    | i + 3 => cases hline
  have hsound : ∀ query, Query.parse "ab" markOptions.querySettings = .ok query →
      ∀ i line, ["axb", "zz", "ab"][i]? = some line →
        ∃ found, (markOptions.search query).result (line, i) = .ok found := by
    intro query hquery
    obtain rfl := Except.ok.inj (hparse.symm.trans hquery)
    exact halone
  have hdelim : markOptions.delimiter.toList = ['!'] := by decide
  have hsplit : Query.split "ab!x" markOptions.delimiter = ("ab", ["x"]) := by decide
  have hsplit' : Query.split "ab!!x!x" markOptions.delimiter = ("ab", ["x", "x"]) := by decide
  obtain ⟨-, hfilter, hothers⟩ := rankItems_exclusions 1 hdelim rfl hsplit hsound
  obtain ⟨-, hsame⟩ := hothers _ _ hsplit' (by simp)
  exact ⟨halone, hfilter, hsame (by simp)⟩

end

end FuzzyPath
