/-
  FuzzyPath — errors in band cannot be taken for results.

  * `respond_of_ok` and `respond_of_error` are the responses of a call: a line and
    a pattern for each result, or the error's text alone;
  * `respond_isError_iff`: which of the two a response is can always be told.
-/
import FuzzyPath.Proofs.Service.Calls

namespace FuzzyPath

section
variable {hardware : Nat} {items : List String} {text : String} {options : Options}
  {results : List Ranked}

theorem isError_ofError (err : MatchError) : (Response.ofError err).isError = true := by
  simp [Response.ofError, Response.isError, List.isPrefixOf_iff_prefix]

/-- A response with as many patterns as lines reports no error. -/
theorem isError_of_length_eq {r : Response} (h : r.patterns.length = r.lines.length) :
    r.isError = false := by
  rw [Response.isError]
  split
  · rename_i line hlines
    rw [hlines] at h
    cases hpatterns : r.patterns with
    | nil =>
      rw [hpatterns] at h
      cases h
    | cons pattern patterns => rfl
  · rfl

theorem respond_of_error {err : MatchError} (h : rankItems hardware items text options = .error err) :
    respond hardware items text options = ⟨["ERROR: " ++ err.message], []⟩ := by
  rw [respond, h]
  rfl

/-- Every result has its line and its pattern in the response. -/
theorem respond_of_ok (h : rankItems hardware items text options = .ok results) :
    List.Forall₂ (fun r line => items[r.index]? = some line) results
        (respond hardware items text options).lines ∧
      (respond hardware items text options).patterns.length =
        (respond hardware items text options).lines.length := by
  have hshown : ∀ r ∈ results, ∃ shown, resultLine? items.toArray options r = some shown ∧
      items[r.index]? = some shown.1 := by
    intro r hr
    obtain ⟨line, hline⟩ := exists_line_of_mem_rankItems h hr
    exact ⟨_, by rw [resultLine?, List.getElem?_toArray, hline]; rfl, hline⟩
  rw [respond, h]
  refine ⟨?_, by simp [buildResponse]⟩
  simp only [buildResponse]
  clear h
  induction results with
  | nil => exact .nil
  | cons r results ih =>
    obtain ⟨⟨shown, hr, hline⟩, hresults⟩ := List.forall_mem_cons.1 hshown
    rw [List.filterMap_cons_some hr, List.map_cons]
    exact .cons hline (ih hresults)

end

/-- A response reports an error exactly if the call has no results, and then it
    is the text of that error alone; otherwise it gives the line of each result
    in their order, and as many patterns.  The response to a request reports an
    error exactly if the request cannot be decoded or its call has no results. -/
theorem respond_isError_iff (hardware : Nat) :
    (∀ items text options,
      ((respond hardware items text options).isError = true ↔
        ∃ err, rankItems hardware items text options = .error err) ∧
      (∀ err, rankItems hardware items text options = .error err →
        respond hardware items text options = ⟨["ERROR: " ++ err.message], []⟩) ∧
      ∀ results, rankItems hardware items text options = .ok results →
        List.Forall₂ (fun r line => items[r.index]? = some line) results
            (respond hardware items text options).lines ∧
          (respond hardware items text options).patterns.length =
            (respond hardware items text options).lines.length) ∧
    ∀ bytes, (answer hardware bytes).isError = true ↔
      (∃ err, decodeRequest bytes = .error err) ∨
        ∃ request, decodeRequest bytes = .ok request ∧
          ∃ err, rankItems hardware request.items request.query request.options = .error err := by
  have hiff : ∀ items text options, (respond hardware items text options).isError = true ↔
      ∃ err, rankItems hardware items text options = .error err := by
    intro items text options
    cases h : rankItems hardware items text options with
    | error err =>
      have herror := isError_ofError err
      rw [respond, h]
      exact ⟨fun _ => ⟨err, rfl⟩, fun _ => herror⟩
    | ok results =>
      rw [isError_of_length_eq (respond_of_ok h).2]
      simp
  refine ⟨fun items text options => ⟨hiff items text options, fun err => respond_of_error,
    fun results => respond_of_ok⟩, fun bytes => ?_⟩
  rw [answer]
  cases decodeRequest bytes with
  | error err => simp [isError_ofError err]
  | ok request => simp [hiff]

end FuzzyPath
