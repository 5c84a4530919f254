/-
  FuzzyPath — plain and JSON output say the same.

  The same command line is run twice: once with plain output, once with the
  response in JSON.  Both runs rank the same lines with the same options.

  * `runRank_plain` and `runRank_json`: the outcome of each run, by the results of
    the call;
  * `isConfiguration_of_options`: if it fails, the matcher is not at fault;
  * `plain_json_agree`: the plain run prints the lines of the response that the
    JSON run prints, or fails with the error that this response is about.
-/
import FuzzyPath.Command.Run
import FuzzyPath.Proofs.Command.Adding
import FuzzyPath.Proofs.Report.Lines
import FuzzyPath.Proofs.Service.InBand

namespace FuzzyPath

/-- The lines of a response are those of the results. -/
theorem lines_respond {hardware : Nat} {items : List String} {text : String} {options : Options}
    {results : List Ranked} (h : rankItems hardware items text options = .ok results) :
    (respond hardware items text options).lines = results.filterMap fun r => items[r.index]? := by
  rw [respond, h]
  simp only [buildResponse, List.map_filterMap]
  refine List.filterMap_congr fun r _ => ?_
  rw [resultLine?, List.getElem?_toArray, Option.map_map]
  exact Option.map_id'

section
variable {s : Surroundings} {a : RankArguments} {items : List String}

theorem candidates_of_walk_eq_none (h : a.walk = none) :
    candidates s a = candidateLines s.input := by
  rw [candidates, h]

theorem runCommand_of_rank {words : List String} (h : Invocation.parse words = .ok (.rank a)) :
    runCommand s words = runRank s a := by
  rw [runCommand, h]
  rfl

theorem runRank_of_error {err : CommandError} (h : candidates s a = .error err) :
    runRank s a = s.failure [] err := by
  rw [runRank, h]

/-- Without colours and details, the lines of the results are printed. -/
theorem runRank_plain {results : List Ranked} (hitems : candidates s a = .ok items)
    (hjson : a.json = false) (hdebug : a.debug = false) (hcolour : a.colour = .never)
    (hresults : rankItems s.hardware items (a.query.getD "") (s.options a) = .ok results) :
    runRank s a = s.success
      (utf8 (String.join ((results.filterMap fun r => items[r.index]?).map (· ++ "\n")))) := by
  rw [runRank, hitems, hjson, hdebug, hcolour]
  simp only [hresults, Surroundings.isColoured, reportText_plain, Bool.false_eq_true, if_false]

theorem runRank_of_matchError {err : MatchError} (hitems : candidates s a = .ok items)
    (hjson : a.json = false)
    (herror : rankItems s.hardware items (a.query.getD "") (s.options a) = .error err) :
    runRank s a = s.failure [] ⟨err.message, none⟩ := by
  rw [runRank, hitems, hjson]
  simp only [herror, Bool.false_eq_true, if_false]

theorem runRank_json (hitems : candidates s a = .ok items) (hjson : a.json = true) :
    runRank s a = s.success (utf8 (Response.form.codec.encode
      (respond s.hardware items (a.query.getD "") (s.options a)) ++ "\n")) := by
  rw [runRank, hitems, hjson]
  rfl

/-- No setting and no argument changes the weights. -/
theorem weights_options (s : Surroundings) (a : RankArguments) :
    (s.options a).weights = .standard := by
  rw [Surroundings.options, rankOptions]
  rfl

/-- A ranking command fails because of its arguments or settings only, as long as each
    line takes less than 4 GiB. -/
theorem isConfiguration_of_options (hlines : ∀ line ∈ items, line.utf8ByteSize < 2 ^ 32)
    {err : MatchError}
    (h : rankItems s.hardware items (a.query.getD "") (s.options a) = .error err) :
    err.isConfiguration = true :=
  isConfiguration_of_standard (weights_options s a) hlines h

/-! ## Two runs -/

/-- The runs of two ranking commands that differ in their output only. -/
theorem exists_response (hitems : candidateLines s.input = .ok items) (hwalk : a.walk = none)
    (hdebug : a.debug = false) (hjson : a.json = false) :
    ∃ response : Response,
      runRank s { a with json := true } =
        s.success (utf8 (Response.form.codec.encode response ++ "\n")) ∧
      ((runRank s { a with colour := .never }).exitCode = 0 →
        runRank s { a with colour := .never } =
          s.success (utf8 (String.join (response.lines.map (· ++ "\n"))))) ∧
      ((runRank s { a with colour := .never }).exitCode ≠ 0 → ∃ err,
        rankItems s.hardware items (a.query.getD "") (s.options a) = .error err ∧
        runRank s { a with colour := .never } = s.failure [] ⟨err.message, none⟩ ∧
        response = ⟨["ERROR: " ++ err.message], []⟩) := by
  have hread (b : RankArguments) (h : b.walk = a.walk) : candidates s b = .ok items :=
    (candidates_of_walk_eq_none (h.trans hwalk)).trans hitems
  -- neither the colour nor the form of the output is an option of the call
  refine ⟨respond s.hardware items (a.query.getD "") (s.options a),
    runRank_json (hread _ rfl) rfl, ?_⟩
  cases hrank : rankItems s.hardware items (a.query.getD "") (s.options a) with
  | ok results =>
    have hrun : runRank s { a with colour := .never } = _ :=
      runRank_plain (hread _ rfl) hjson hdebug rfl hrank
    rw [hrun, lines_respond hrank]
    exact ⟨fun _ => rfl, fun h => absurd rfl h⟩
  | error err =>
    have hrun : runRank s { a with colour := .never } = _ :=
      runRank_of_matchError (hread _ rfl) hjson hrank
    rw [hrun]
    exact ⟨fun h => (nomatch h), fun _ => ⟨err, rfl, rfl, respond_of_error hrank⟩⟩

end

/-- What a ranking command prints as it is with its output plain, and what with the
    response in JSON: the same lines, or the same error. -/
theorem plain_json_agree (s : Surroundings) {words plainWords jsonWords : List String}
    {a : RankArguments} (hparse : Invocation.parse words = .ok (.rank a))
    (hnone : ∀ option ∈ [.setting .walk, .flag .debug, .flag .json, .setting .colour],
      option ∉ namedOptions words)
    (hplain : AddsWords ["--color", "never"] words plainWords)
    (hjson : AddsWords ["--json"] words jsonWords) :
    ∃ b c : RankArguments,
      Invocation.parse plainWords = .ok (.rank b) ∧ Invocation.parse jsonWords = .ok (.rank c) ∧
      candidates s b = candidateLines s.input ∧ candidates s c = candidateLines s.input ∧
      s.options b = s.options c ∧ b.query = c.query ∧
      (∀ err, candidateLines s.input = .error err →
        runCommand s plainWords = s.failure [] err ∧ runCommand s jsonWords = s.failure [] err) ∧
      ∀ items, candidateLines s.input = .ok items → ∃ response : Response,
        runCommand s jsonWords =
          s.success (utf8 (Response.form.codec.encode response ++ "\n")) ∧
        ((runCommand s plainWords).exitCode = 0 → runCommand s plainWords =
          s.success (utf8 (String.join (response.lines.map (· ++ "\n"))))) ∧
        ((runCommand s plainWords).exitCode ≠ 0 → ∃ err,
          rankItems s.hardware items (b.query.getD "") (s.options b) = .error err ∧
          runCommand s plainWords = s.failure [] ⟨err.message, none⟩ ∧
          response = ⟨["ERROR: " ++ err.message], []⟩) := by
  have hwalk : a.walk = none := congrArg RankArguments.walk
    (parse_fixed (apart_walk none) rfl hparse (hnone _ (by decide))).symm
  have hdebug : a.debug = false := congrArg RankArguments.debug
    (parse_fixed (apart_debug false) rfl hparse (hnone _ (by decide))).symm
  have hnot : a.json = false := congrArg RankArguments.json
    (parse_fixed (apart_json false) rfl hparse (hnone _ (by decide))).symm
  have hb := parse_addsWords (apart_colour .never) gives_never hplain (hnone _ (by decide)) hparse
  have hc := parse_addsWords (apart_json true) gives_json hjson (hnone _ (by decide)) hparse
  have hlines (b : RankArguments) (h : b.walk = a.walk) : candidates s b = candidateLines s.input :=
    candidates_of_walk_eq_none (h.trans hwalk)
  refine ⟨_, _, hb, hc, hlines _ rfl, hlines _ rfl, rfl, rfl, fun err herr => ?_,
    fun items hitems => ?_⟩
  · have hfails (b : RankArguments) (h : b.walk = a.walk) : runRank s b = s.failure [] err :=
      runRank_of_error ((hlines b h).trans herr)
    rw [runCommand_of_rank hb, runCommand_of_rank hc]
    exact ⟨hfails _ rfl, hfails _ rfl⟩
  · rw [runCommand_of_rank hb, runCommand_of_rank hc]
    exact exists_response hitems hwalk hdebug hnot

/-- Two lines to rank, and a directory where the settings file should be. -/
def twoLines : Surroundings where
  hardware := 1
  input := utf8 "b\nab\n"
  files := ⟨[], [], []⟩
  directories := ⟨[], []⟩
  hasColours := true
  settingsPath := "config.json"
  settingsFile := .directory

/-- The options are added in the middle and at the end. -/
theorem plain_json_agree_twoLines : ∃ response : Response,
    runCommand twoLines ["b", "-n", "1", "--json"] =
      twoLines.success (utf8 (Response.form.codec.encode response ++ "\n")) ∧
    runCommand twoLines ["b", "--color", "never", "-n", "1"] =
      twoLines.success (utf8 (String.join (response.lines.map (· ++ "\n")))) := by
  have hparse : Invocation.parse ["b", "-n", "1"] =
      .ok (.rank { RankArguments.standard with query := some "b", limit := some 1 }) := rfl
  have hplain : AddsWords ["--color", "never"] ["b", "-n", "1"]
      ["b", "--color", "never", "-n", "1"] := ⟨["b"], ["-n", "1"], _, rfl, rfl, by decide, rfl⟩
  have hjson : AddsWords ["--json"] ["b", "-n", "1"] ["b", "-n", "1", "--json"] :=
    ⟨["b", "-n", "1"], [], _, rfl, rfl, by decide, hparse⟩
  have hitems : candidateLines twoLines.input = .ok ["b", "ab"] := by
    rw [candidateLines, twoLines, fromUTF8?_utf8]
    exact congrArg Except.ok (by decide)
  have hexit : (runCommand twoLines ["b", "--color", "never", "-n", "1"]).exitCode = 0 := by
    decide +kernel
  obtain ⟨_, _, -, -, -, -, -, -, -, hrun⟩ :=
    plain_json_agree twoLines hparse (by decide) hplain hjson
  obtain ⟨response, hprinted, hlines, -⟩ := hrun _ hitems
  exact ⟨response, hprinted, hlines hexit⟩

end FuzzyPath
