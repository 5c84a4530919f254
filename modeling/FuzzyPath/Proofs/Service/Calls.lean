/-
  FuzzyPath — what a matching call comes to.

  * `rankItems_eq_match`: the weights are checked first, then the query is parsed, and
    then it is searched for; a fault of the search is an error of the call;
  * `rankItems_eq_ok_iff`: so there are results exactly if all three go well;
  * `exists_line_of_mem_rankItems`: the results stand for lines of the list;
  * `isConfiguration_of_standard`: with the standard weights only the caller's mistakes
    make a call fail, in lines of ordinary size.
-/
import FuzzyPath.Proofs.Ranking.Places
import FuzzyPath.Proofs.Scoring.Positions
import FuzzyPath.Service.Matching

namespace FuzzyPath

variable {hardware : Nat} {items : List String} {text : String} {options : Options}
  {results : List Ranked}

theorem rankItems_eq_match (hardware : Nat) (items : List String) (text : String)
    (options : Options) : rankItems hardware items text options =
      match options.weights.validate, Query.parse text options.querySettings with
      | .error err, _ => .error (.invalidRequest err.message)
      | .ok (), .error err => .error err
      | .ok (), .ok query =>
        ((options.search query).run hardware items).mapError fun fault =>
          .internal fault.message := by
  rw [rankItems]
  cases options.weights.validate with
  | error err => rfl
  | ok valid =>
    cases Query.parse text options.querySettings with
    | error err => rfl
    | ok query =>
      simp only [bind, Except.bind]
      cases (options.search query).run hardware items with
      | error fault => rfl
      | ok results => rfl

theorem rankItems_eq_ok_iff : rankItems hardware items text options = .ok results ↔
    options.weights.validate = .ok () ∧ ∃ query,
      Query.parse text options.querySettings = .ok query ∧
      (options.search query).run hardware items = .ok results := by
  rw [rankItems_eq_match]
  cases options.weights.validate with
  | error err => simp
  | ok valid =>
    cases Query.parse text options.querySettings with
    | error err => simp
    | ok query =>
      cases hrun : (options.search query).run hardware items with
      | error fault => simp [Except.mapError, hrun]
      | ok results' => simp [Except.mapError, hrun]

/-- The results of a call stand for lines of the list. -/
theorem exists_line_of_mem_rankItems (h : rankItems hardware items text options = .ok results)
    {r : Ranked} (hr : r ∈ results) : ∃ line, items[r.index]? = some line := by
  obtain ⟨-, query, -, hrun⟩ := rankItems_eq_ok_iff.1 h
  exact Search.exists_line_of_mem_run hrun hr

theorem isConfiguration_of_parse {settings : QuerySettings} {err : MatchError}
    (h : Query.parse text settings = .error err) : err.isConfiguration = true := by
  rw [Query.parse] at h
  cases hkind : Query.keyKindOf settings with
  | ok kind =>
    rw [hkind] at h
    cases h
  | error err' =>
    rw [hkind] at h
    obtain rfl := Except.error.inj h
    rw [Query.keyKindOf] at hkind
    split at hkind
    · obtain rfl := Except.error.inj hkind
      rfl
    all_goals cases hkind

/-- With the standard weights a call fails because of its caller's settings only, as
    long as each line takes less than 4 GiB. -/
theorem isConfiguration_of_standard (hweights : options.weights = .standard)
    (hlines : ∀ line ∈ items, line.utf8ByteSize < 2 ^ 32) {err : MatchError}
    (h : rankItems hardware items text options = .error err) : err.isConfiguration = true := by
  rw [rankItems_eq_match, hweights, Weights.validate_standard] at h
  cases hparse : Query.parse text options.querySettings with
  | error err' =>
    rw [hparse] at h
    obtain rfl := Except.error.inj h
    exact isConfiguration_of_parse hparse
  | ok query =>
    rw [hparse] at h
    -- each line can be evaluated on its own, so the search has results
    have halone : ∀ line ∈ items.zipIdx, ∃ found,
        (options.search query).result line = .ok found := by
      rintro ⟨line, i⟩ hline
      obtain ⟨outcome, houtcome⟩ := Scorer.exists_evaluate_of_standard
        (s := .new query options.weights (options.search query).context) hweights
        (Scorer.addressable_of_size_lt _
          (hlines line (List.mem_of_getElem? (List.mem_zipIdx_iff_getElem?.1 hline))) i _ _)
      exact ⟨_, congrArg (Except.map _) houtcome⟩
    dsimp only at h
    rw [Search.run_eq_best halone hardware] at h
    cases h

end FuzzyPath
