/-
  FuzzyPath — the results of a search.

  * `Search.result` is what a line gives on its own, and `Search.ranking` are
    the results of all lines in their order;
  * `withBases_partsOf`: a part begins after as many full parts as stand before it;
  * `parts_zipIdx`: the parts are the lines with their places, once each;
  * `scan_spec`: a scan offers the result of each line, whatever the scorer was
    used for before;
  * `run_eq_ranking`: a search gives the first of the ranking;
  * `execute_eq_ok_iff`: so does one that starts its workers, if they start or there
    is no need of them.
-/
import FuzzyPath.Proofs.Fallible
import FuzzyPath.Proofs.Ranking.TopK
import FuzzyPath.Proofs.Scoring.Reuse
import FuzzyPath.Ranking.Search

namespace FuzzyPath

open Ranked TopK

theorem mergeRanked_eq_best {limit : Nat} {tops : List TopK} {offered : List (List Ranked)}
    (h : List.Forall₂ (Keeps limit) tops offered) (hkeys : DistinctKeys offered.flatten) :
    mergeRanked tops limit = best limit offered.flatten :=
  (best_of_keeps h [] hkeys).symm

/-! ## Parts -/

theorem flatten_partsOf {α : Type} {size : Nat} (hsize : 0 < size) (items : List α) :
    (partsOf size items).flatten = items := by
  induction items using partsOf.induct size with
  | case1 items h ih => rw [partsOf, if_pos h, List.flatten_cons, ih, List.take_append_drop]
  | case2 items h =>
    rw [partsOf, if_neg h, List.flatten_nil]
    exact (List.length_eq_zero_iff.1 (by omega)).symm

/-- All parts but the last are of full size, so each begins at a multiple of it. -/
theorem withBases_partsOf {α : Type} {size : Nat} (items : List α) (base : Nat) :
    withBases base (partsOf size items) =
      (partsOf size items).mapIdx fun n part => (base + n * size, part) := by
  induction items using partsOf.induct size generalizing base with
  | case1 items h ih =>
    rw [partsOf, if_pos h, withBases, List.mapIdx_cons, Nat.zero_mul, Nat.add_zero]
    refine congrArg _ ?_
    by_cases hlast : items.length ≤ size
    · have hdrop : partsOf size (items.drop size) = [] := by
        rw [List.drop_eq_nil_of_le hlast, partsOf, if_neg (by simp)]
      rw [hdrop]
      rfl
    · have hfull : (items.take size).length = size := by
        rw [List.length_take]
        omega
      rw [hfull, ih]
      refine congrArg (List.mapIdx · _) ?_
      funext n part
      rw [Nat.succ_mul, Nat.add_assoc, Nat.add_comm size]
  | case2 items h =>
    rw [partsOf, if_neg h]
    rfl

/-- Each part has the places that its elements have in the whole. -/
theorem withBases_zipIdx {α : Type} : ∀ (parts : List (List α)) (base : Nat),
    (withBases base parts).flatMap (fun part => part.2.zipIdx part.1) = parts.flatten.zipIdx base
  | [], _ => rfl
  | part :: parts, base => by
    rw [withBases, List.flatMap_cons, withBases_zipIdx, List.flatten_cons, List.zipIdx_append]

namespace Search

theorem one_le_workerCount (s : Search) (hardware candidates : Nat) :
    1 ≤ s.workerCount hardware candidates := Nat.le_max_right ..

theorem parts_zipIdx (s : Search) (hardware : Nat) (items : List String) :
    (s.parts hardware items).flatMap (fun part => part.2.zipIdx part.1) = items.zipIdx := by
  rw [parts]
  split
  · rw [List.flatMap_singleton]
  · rename_i hworkers
    -- With more than one worker there are at least as many lines.
    have hsize : 0 < (items.length + s.workerCount hardware items.length - 1) /
        s.workerCount hardware items.length := by
      refine Nat.div_pos ?_ (Nat.lt_of_lt_of_le Nat.zero_lt_one (s.one_le_workerCount _ _))
      rw [ScansWhole, workerCount] at *
      omega
    rw [withBases_zipIdx, flatten_partsOf hsize]

/-! ## Lines on their own -/

/-- The result of a line with its place, by a scorer of its own. -/
def result (s : Search) (line : String × Nat) : Except Fault (Option Ranked) :=
  ((Scorer.new s.query s.weights s.context).evaluate
    (.ofLine line.2 line.1 s.query.matchMode s.context.style)).map fun (outcome, _) =>
      outcome.map fun m => ⟨m.score, line.2, m.positions⟩

/-- The results of all lines that match, the higher score first and, of two of
    one score, the line that comes first. -/
def ranking (s : Search) (items : List String) : Except Fault (List Ranked) :=
  (items.zipIdx.mapM s.result).map fun results =>
    (results.filterMap id).mergeSort fun a b =>
      decide (b.score < a.score ∨ a.score = b.score ∧ a.index ≤ b.index)

/-- The result of a line, if it matches and there is no fault. -/
def found (s : Search) (line : String × Nat) : Option Ranked :=
  match s.result line with
  | .ok found => found
  | .error _ => none

variable {s : Search} {items : List String}

theorem result_eq_found {line : String × Nat} (h : ∃ found, s.result line = .ok found) :
    s.result line = .ok (s.found line) := by
  obtain ⟨r, hr⟩ := h
  rw [found, hr]

theorem index_of_found {line : String × Nat} {r : Ranked} (h : s.found line = some r) :
    r.index = line.2 := by
  rw [found] at h
  split at h
  · rename_i hresult
    obtain ⟨⟨outcome, t⟩, -, hr⟩ := map_eq_ok hresult
    subst h
    obtain ⟨m, -, rfl⟩ := Option.map_eq_some_iff.1 hr
    rfl
  · cases h

/-- A line has at most one result, and the result has its place. -/
theorem nodup_found (s : Search) (items : List String) :
    ((items.zipIdx.filterMap s.found).map (·.index)).Nodup := by
  have hplaces : (items.zipIdx.map Prod.snd).Nodup := by
    rw [List.zipIdx_map_snd]
    exact List.nodup_range'
  refine List.pairwise_map.2 ((List.pairwise_map.1 hplaces).filterMap s.found ?_)
  intro p q hne a ha b hb heq
  rw [index_of_found ha, index_of_found hb] at heq
  exact hne heq

theorem ranking_eq (h : ∀ line ∈ items.zipIdx, ∃ found, s.result line = .ok found) :
    s.ranking items = .ok (sort (items.zipIdx.filterMap s.found)) := by
  rw [ranking, mapM_eq_ok fun line hline => result_eq_found (h line hline), sort_eq_mergeSort,
    Except.map, List.filterMap_map]
  rfl

/-! ## Scanning -/

/-- A line is offered as it is found on its own. -/
theorem scan_spec : ∀ {lines : List String} {index : Nat} {scorer : Scorer} {top : TopK}
    {offered : List Ranked}, scorer.fresh = .new s.query s.weights s.context →
    Keeps s.limit top offered → (∀ line ∈ lines.zipIdx index, ∃ found, s.result line = .ok found) →
    ∃ top', s.scan scorer top index lines = .ok top' ∧
      Keeps s.limit top' (offered ++ (lines.zipIdx index).filterMap s.found)
  | [], _, _, top, offered, _, htop, _ =>
    ⟨top, rfl, by rwa [List.zipIdx_nil, List.filterMap_nil, List.append_nil]⟩
  | line :: lines, index, scorer, top, offered, hfresh, htop, halone => by
    rw [List.zipIdx_cons, List.forall_mem_cons] at halone
    obtain ⟨hline, hlines⟩ := halone
    have hfound := result_eq_found hline
    obtain ⟨⟨outcome, t⟩, heval, hr⟩ := map_eq_ok hfound
    rw [← hfresh] at heval
    obtain ⟨scorer', hscore, hfresh', hpositions⟩ := Scorer.exists_score_of_evaluate heval
    rw [hfresh] at hfresh'
    rw [scan, hscore, List.zipIdx_cons, List.filterMap_cons, ← hr]
    cases outcome with
    | none => exact scan_spec hfresh' htop hlines
    | some m =>
      obtain ⟨kept, top', hinsert, htop'⟩ := htop.insertWith ⟨m.score, index, m.positions⟩
        (fun buffer => scorer'.positions.map (buffer ++ ·))
        (by rw [hpositions m rfl]; rfl)
      simp only [Option.map_some, hinsert]
      obtain ⟨top'', hscan, htop''⟩ := scan_spec hfresh' htop' hlines
      refine ⟨top'', hscan, ?_⟩
      rwa [List.append_assoc] at htop''

/-- Each part is offered its own results. -/
theorem scanPart_spec (halone : ∀ line ∈ items.zipIdx, ∃ found, s.result line = .ok found)
    {hardware : Nat} : ∀ part ∈ s.parts hardware items, ∃ top, s.scanPart part = .ok top ∧
      Keeps s.limit top ((part.2.zipIdx part.1).filterMap s.found) := by
  intro part hpart
  refine scan_spec rfl (keeps_withExpected s.limit _) fun line hline => halone line ?_
  rw [← s.parts_zipIdx hardware items]
  exact List.mem_flatMap.2 ⟨part, hpart, hline⟩

/-- The best results of all lines are found, whatever the parts. -/
theorem run_eq_best (halone : ∀ line ∈ items.zipIdx, ∃ found, s.result line = .ok found)
    (hardware : Nat) :
    s.run hardware items = .ok (best s.limit (items.zipIdx.filterMap s.found)) := by
  rw [run]
  by_cases hempty : items.isEmpty = true
  · rw [if_pos hempty, List.isEmpty_iff.1 hempty, List.zipIdx_nil, List.filterMap_nil, best, sort,
      List.mergeSort_nil, first_nil]
  · obtain ⟨tops, htops, hkeeps⟩ := exists_mapM_eq_ok (scanPart_spec halone)
    have hflatten : ((s.parts hardware items).map fun part =>
        (part.2.zipIdx part.1).filterMap s.found).flatten = items.zipIdx.filterMap s.found := by
      rw [← List.flatMap_def, ← List.filterMap_flatMap, parts_zipIdx]
    rw [if_neg hempty, htops]
    refine congrArg Except.ok ?_
    rw [mergeRanked_eq_best hkeeps, hflatten]
    rw [hflatten]
    exact distinctKeys_of_nodup (nodup_found s items)

/-- A search gives the first of the ranking, whatever the number of workers and
    the parts; no line stands in it twice, and a smaller limit gives a prefix. -/
theorem run_eq_ranking
    (halone : ∀ i line, items[i]? = some line → ∃ found, s.result (line, i) = .ok found) :
    ∃ ranking, s.ranking items = .ok ranking ∧ (ranking.map (·.index)).Nodup ∧
      (∀ limit maxThreads parallelThreshold hardware,
        ({ s with limit, maxThreads, parallelThreshold } : Search).run hardware items =
          .ok (first limit ranking)) ∧
      ∀ limit limit', limit ≠ 0 → (limit' = 0 ∨ limit ≤ limit') →
        first limit ranking <+: first limit' ranking := by
  have hlines : ∀ line ∈ items.zipIdx, ∃ found, s.result line = .ok found := fun line hline =>
    halone line.2 line.1 (List.mem_zipIdx_iff_getElem?.1 hline)
  refine ⟨_, ranking_eq hlines, ?_, fun limit maxThreads parallelThreshold hardware => ?_,
    fun limit limit' hlimit hle => first_prefix_first hlimit hle _⟩
  · exact ((sort_perm _).map _).nodup_iff.2 (nodup_found s items)
  · let s' : Search := { s with limit, maxThreads, parallelThreshold }
    exact run_eq_best (s := s') hlines hardware

/-- A search that starts its workers gives what they find, if they start or the lines
    are scanned as a whole. -/
theorem execute_eq_ok_iff {start : Nat → Except WorkerError Unit} {hardware : Nat}
    {found : Except Fault (List Ranked)} : s.execute start hardware items = .ok found ↔
      (s.ScansWhole hardware items.length ∨
        start (s.workerCount hardware items.length) = .ok ()) ∧ s.run hardware items = found := by
  rw [execute]
  by_cases hwhole : s.ScansWhole hardware items.length
  · rw [if_neg (not_not_intro hwhole)]
    exact ⟨fun h => ⟨Or.inl hwhole, Except.ok.inj h⟩, fun h => congrArg Except.ok h.2⟩
  · rw [if_pos hwhole]
    cases hstart : start (s.workerCount hardware items.length) with
    | ok u =>
      exact ⟨fun h => ⟨Or.inr rfl, Except.ok.inj h⟩, fun h => congrArg Except.ok h.2⟩
    | error err =>
      refine ⟨fun h => (by cases h), ?_⟩
      rintro ⟨hwhole' | hok, -⟩
      · exact absurd hwhole' hwhole
      · cases hok

/-- A search for `ab` with the standard weights. -/
def searchAb : Search :=
  ⟨Scorer.queryAb, .standard, ⟨none, false, .unix⟩, 0, 0, defaultParallelThreshold⟩

theorem run_axb_ab : searchAb.ranking ["axb", "zz", "ab"] =
      .ok [⟨58000, 2, [0, 1]⟩, ⟨43658, 0, [0, 2]⟩] ∧
    ∀ limit maxThreads parallelThreshold hardware,
      ({ searchAb with limit, maxThreads, parallelThreshold } : Search).run hardware
        ["axb", "zz", "ab"] = .ok (first limit [⟨58000, 2, [0, 1]⟩, ⟨43658, 0, [0, 2]⟩]) := by
  have haxb : searchAb.result ("axb", 0) = .ok (some ⟨43658, 0, [0, 2]⟩) := by decide +kernel
  have hzz : searchAb.result ("zz", 1) = .ok none := by decide +kernel
  have hab : searchAb.result ("ab", 2) = .ok (some ⟨58000, 2, [0, 1]⟩) := by decide +kernel
  have halone : ∀ i line, ["axb", "zz", "ab"][i]? = some line →
      ∃ found, searchAb.result (line, i) = .ok found := by
    intro i line hline
    match i with
    | 0 => obtain rfl := Option.some.inj hline; exact ⟨_, haxb⟩
    | 1 => obtain rfl := Option.some.inj hline; exact ⟨_, hzz⟩
    | 2 => obtain rfl := Option.some.inj hline; exact ⟨_, hab⟩
    | i + 3 => cases hline
  have hranking : searchAb.ranking ["axb", "zz", "ab"] =
      .ok [⟨58000, 2, [0, 1]⟩, ⟨43658, 0, [0, 2]⟩] := by
    simp [ranking, haxb, hzz, hab, bind, Except.bind, pure, Except.pure, Except.map,
      List.mergeSort]
  obtain ⟨ranking, heq, -, hrun, -⟩ := run_eq_ranking halone
  obtain rfl := Except.ok.inj (hranking.symm.trans heq)
  exact ⟨hranking, hrun⟩

end Search

end FuzzyPath
