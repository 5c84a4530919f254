/-
  FuzzyPath — what aligning a query comes to.

  * `solve_eq_none_iff`: there is no result exactly if there is no alignment;
  * `greedy_isAlignment`: with valid prices the greedy result is an alignment;
  * `Scanned.solve_of_endures` and `Scanned.solve_of_no_endures`: the result of
    the table is the best alignment, as it is read back, if one endures, and else
    goes through a column that the candidate does not have;
  * `Problem.Survives` is when the result is an alignment, and with cheap gaps
    that is always (`survives_of_gap_le`).
-/
import FuzzyPath.Proofs.Alignment.Optimum

namespace FuzzyPath.Alignment

namespace Embeds
variable {accepts : TextUnit → Column → Bool} {columns : List Column} {query : List TextUnit}
  {path : List Nat}

theorem length_le (h : Embeds accepts columns query path) : query.length ≤ columns.length := by
  have hsub : path ⊆ List.range columns.length := fun j hj => List.mem_range.2 (h.lt_length hj)
  have hnodup : path.Nodup := h.increasing.imp fun hab => Nat.ne_of_lt hab
  have := (List.subperm_of_subset hnodup hsub).length_le
  rwa [List.length_range, ← h.length_eq] at this

theorem of_take {n : Nat} (h : Embeds accepts (columns.take n) query path) :
    Embeds accepts columns query path := by
  refine ⟨h.increasing, h.matching.imp fun q j hj => ?_⟩
  obtain ⟨c, hc, hq⟩ := hj
  rw [List.getElem?_take] at hc
  split at hc
  · exact ⟨c, hc, hq⟩
  · cases hc

/-- An embedding needs no column after its last one. -/
theorem take {n : Nat} (h : Embeds accepts columns query path) (hn : ∀ j ∈ path, j < n) :
    Embeds accepts (columns.take n) query path := by
  refine ⟨h.increasing, ?_⟩
  rw [List.forall₂_iff_get]
  refine ⟨h.length_eq, fun i hi hi' => ?_⟩
  obtain ⟨c, hc, hq⟩ := h.matching.get hi hi'
  refine ⟨c, ?_, hq⟩
  rw [List.getElem?_take, if_pos (hn _ (List.get_mem ..)), hc]

end Embeds

variable {p : Problem} {first last : List Nat}

/-! ## The greedy alignment -/

theorem lt_of_getLastD_le {path : List Nat} {n : Nat} (hinc : path.Pairwise (· < ·))
    (hlast : path.getLastD 0 ≤ n) : ∀ j ∈ path, j < n + 1 := by
  intro j hj
  cases path with
  | nil => cases hj
  | cons i path =>
    rw [List.getLastD_cons] at hlast
    exact Nat.lt_succ_of_le ((le_getLastD hinc j hj).trans hlast)

/-- The scan from the end back, in the columns up to the earliest end, finds the
    greedy alignment. -/
theorem latest_take_eq (hfirst : earliest p.accepts p.query p.columns.toList = some first) :
    latest p.accepts p.query (p.columns.toList.take (first.getLastD 0 + 1)) =
      some (greedyPath p first) := by
  have hemb := earliest_embeds _ hfirst
  obtain ⟨last, hlast, -⟩ := latest_greatest (hemb.take (lt_of_getLastD_le hemb.increasing le_rfl))
  rw [greedyPath, hlast]
  rfl

theorem greedyPath_isAlignment (hfirst : earliest p.accepts p.query p.columns.toList = some first) :
    p.IsAlignment (greedyPath p first) := (latest_embeds (latest_take_eq hfirst)).of_take

theorem priceFrom_eq_ok (hp : p.Moderate) : ∀ {query : List TextUnit} {path : List Nat},
    List.Forall₂ (fun q j => ∃ c, p.columns.toList[j]? = some c ∧ p.accepts q c = true)
      query path →
    ∀ total prev, ∃ v, priceFrom p total prev query path = .ok v
  | [], [], .nil, total, _ => ⟨total, by simp [priceFrom]⟩
  | q :: _, j :: _, .cons ⟨c, hc, _⟩ hrest, total, prev => by
    have hprice := matchPrice_eq hp q (List.mem_of_getElem? hc)
    rw [Array.getElem?_toList] at hc
    simp only [priceFrom, hc, hprice]
    exact priceFrom_eq_ok hp hrest _ _

theorem price_of_greedy {sol : Solution} (h : greedy p first = .ok sol) :
    sol.path = greedyPath p first ∧ price p sol.path = .ok sol.score := by
  obtain ⟨v, hv, hsol⟩ := bind_eq_ok h
  obtain rfl := Except.ok.inj hsol
  exact ⟨rfl, hv⟩

/-- With moderate prices the greedy result exists, and it is an alignment. -/
theorem greedy_isAlignment (hp : p.Moderate)
    (hfirst : earliest p.accepts p.query p.columns.toList = some first) :
    ∃ sol, greedy p first = .ok sol ∧ p.IsAlignment sol.path := by
  have halign := greedyPath_isAlignment hfirst
  obtain ⟨v, hv⟩ := priceFrom_eq_ok hp halign.matching 0 none
  exact ⟨⟨v, greedyPath p first⟩, by rw [greedy, price, hv]; rfl, halign⟩

/-! ## Solving -/

theorem solve_of_greedy (hfirst : earliest p.accepts p.query p.columns.toList = some first)
    (hlast : latest p.accepts p.query p.columns.toList = some last)
    (hcells : maxCells < p.query.length * width first last) :
    solve p = (greedy p first).map some := by
  have hlen := (earliest_embeds _ hfirst).length_le
  rw [Array.length_toList] at hlen
  rw [solve, if_neg (by omega), hfirst, hlast]
  exact if_pos hcells

theorem Scanned.solve_eq (h : Scanned p first last) : solve p = (best p first last).map some := by
  have hlen := h.embeds_first.length_le
  rw [Array.length_toList] at hlen
  rw [solve, if_neg (by omega), h.earliest_eq, h.latest_eq]
  exact if_neg (not_lt.2 h.cells_le)

/-- There is no result exactly if there is no alignment. -/
theorem solve_eq_none_iff : solve p = .ok none ↔ ¬ ∃ path, p.IsAlignment path := by
  rw [show (∃ path, p.IsAlignment path) ↔ _ from exists_embeds_iff]
  constructor
  · rintro hsolve ⟨first, last, hfirst, hlast⟩
    have hlen := (earliest_embeds _ hfirst).length_le
    rw [Array.length_toList] at hlen
    simp only [solve, if_neg (not_lt.2 hlen), hfirst, hlast] at hsolve
    split at hsolve
    · obtain ⟨sol, -, hsol⟩ := map_eq_ok hsolve
      cases hsol
    · obtain ⟨sol, -, hsol⟩ := map_eq_ok hsolve
      cases hsol
  · intro hnone
    rw [solve]
    split
    · rfl
    · split
      · rename_i first last hfirst hlast
        exact absurd ⟨first, last, hfirst, hlast⟩ hnone
      · rfl

theorem solve_isSome_iff {result : Option Solution} (h : solve p = .ok result) :
    result.isSome = true ↔ ∃ path, p.IsAlignment path := by
  cases result with
  | none => simpa using solve_eq_none_iff.1 h
  | some sol =>
    refine ⟨fun _ => ?_, fun _ => rfl⟩
    by_contra hnone
    rw [solve_eq_none_iff.2 hnone] at h
    cases h

theorem readBack_of_isAlignment {path : List Nat} (h : p.IsAlignment path)
    (hsize : p.columns.size < 2 ^ 32) : readBack path = .ok path := by
  refine (readBack_eq_self_iff path).2 fun k hk => ?_
  have hlt := h.lt_length ((List.dropLast_sublist path).subset hk)
  rw [Array.length_toList] at hlt
  exact hlt.trans hsize

namespace Scanned

/-- If an alignment endures, the result is the best of those that do, as it is read
    back. -/
theorem solve_of_endures (h : Scanned p first last) (hp : p.Moderate)
    (hends : ∃ path, p.IsAlignment path ∧ p.Endures p.query path) :
    ∃ path, p.IsAlignment path ∧
      (∀ path', p.IsAlignment path' → p.Endures p.query path' →
        p.worth p.query path' ≤ p.worth p.query path) ∧
      solve p = (readBack path).map (fun found => some ⟨p.worth p.query path, found⟩) := by
  obtain ⟨path₀, halign₀, hend₀⟩ := hends
  obtain ⟨j, path, v, hbest, htrail, hmax, -⟩ := h.best_of_trail hp
    (h.trail_iff.2 ⟨by rwa [List.reverse_reverse], by rwa [List.reverse_reverse], rfl⟩)
  obtain ⟨halign, -, rfl⟩ := h.trail_iff.1 htrail
  refine ⟨_, halign, fun path' halign' hend' => ?_, ?_⟩
  · refine hmax path'.reverse _ (h.trail_iff.2 ⟨?_, ?_, ?_⟩)
    · rwa [List.reverse_reverse]
    · rwa [List.reverse_reverse]
    · rw [List.reverse_reverse]
  · rw [h.solve_eq, hbest]
    cases readBack (j :: path).reverse <;> rfl

/-- If none endures, a result has the score that stands for no alignment, and
    its path goes through the column that stands for none. -/
theorem solve_of_no_endures (h : Scanned p first last) (hp : p.Moderate)
    (hnone : ∀ path, p.IsAlignment path → ¬ p.Endures p.query path)
    {result : Option Solution} (hsolve : solve p = .ok result) :
    ∃ sol, result = some sol ∧ sol.score = unreached ∧ noColumn.toNat ∈ sol.path := by
  rw [h.solve_eq] at hsolve
  obtain ⟨sol, hbest, rfl⟩ := map_eq_ok hsolve
  refine ⟨sol, rfl, h.best_of_no_trail hp (fun path v htrail => ?_) hbest⟩
  obtain ⟨halign, hend, -⟩ := h.trail_iff.1 htrail
  exact hnone _ halign hend

end Scanned

/-- Whether the table is not used, or an alignment endures. -/
def Problem.Survives (p : Problem) : Prop :=
  (∀ first last, earliest p.accepts p.query p.columns.toList = some first →
      latest p.accepts p.query p.columns.toList = some last →
      maxCells < p.query.length * width first last) ∨
    ∃ path, p.IsAlignment path ∧ p.Endures p.query path

section Survives
variable (hp : p.Moderate) (hquery : p.query ≠ [])
include hp hquery

/-- If there is an alignment, the result is one in these cases, as long as 32 bits
    hold every column. -/
theorem exists_solve_of_survives (hsize : p.columns.size < 2 ^ 32) (hsurvives : p.Survives)
    (hsome : ∃ path, p.IsAlignment path) :
    ∃ sol, solve p = .ok (some sol) ∧ p.IsAlignment sol.path := by
  obtain ⟨first, last, hfirst, hlast⟩ := exists_embeds_iff.1 hsome
  by_cases hcells : p.query.length * width first last ≤ maxCells
  · have hscan : Scanned p first last := ⟨hquery, hfirst, hlast, hcells⟩
    have hends := hsurvives.resolve_left fun hwide =>
      absurd hcells (not_le.2 (hwide first last hfirst hlast))
    obtain ⟨path, halign, -, hsol⟩ := hscan.solve_of_endures hp hends
    rw [readBack_of_isAlignment halign hsize] at hsol
    exact ⟨_, hsol, halign⟩
  · obtain ⟨sol, hsol, halign⟩ := greedy_isAlignment hp hfirst
    exact ⟨sol, by rw [solve_of_greedy hfirst hlast (not_le.1 hcells), hsol]; rfl, halign⟩

/-- In all others a result goes through a column that there is not. -/
theorem mem_path_of_not_survives (hnot : ¬ p.Survives) {result : Option Solution}
    (hsolve : solve p = .ok result) : ∃ sol, result = some sol ∧ noColumn.toNat ∈ sol.path := by
  rw [Problem.Survives, not_or] at hnot
  obtain ⟨hnarrow, hnone⟩ := hnot
  push Not at hnarrow
  obtain ⟨first, last, hfirst, hlast, hcells⟩ := hnarrow
  have hscan : Scanned p first last := ⟨hquery, hfirst, hlast, hcells⟩
  obtain ⟨sol, hsol, -, hmem⟩ := hscan.solve_of_no_endures hp
    (fun path halign hend => hnone ⟨path, halign, hend⟩) hsolve
  exact ⟨sol, hsol, hmem⟩

/-- Where a gap loses at most 511 a column, an alignment always endures. -/
theorem survives_of_gap_le (hopen : p.prices.gapOpen ≤ 511)
    (hpass : p.prices.gapExtend + p.prices.componentGap ≤ 511) : p.Survives := by
  by_cases hwide : ∀ first last, earliest p.accepts p.query p.columns.toList = some first →
      latest p.accepts p.query p.columns.toList = some last →
      maxCells < p.query.length * width first last
  · exact Or.inl hwide
  · push Not at hwide
    obtain ⟨first, last, hfirst, hlast, hcells⟩ := hwide
    have hscan : Scanned p first last := ⟨hquery, hfirst, hlast, hcells⟩
    have halign := hscan.embeds_first
    have hshort : first.length ≤ 1024 := halign.length_eq ▸ hscan.length_le
    have hfloor := hscan.floor_lt_worth hp hopen hpass halign
    exact Or.inr ⟨first, halign, hp.endures_of_floor_lt halign.length_eq hshort (by omega)⟩

end Survives

end FuzzyPath.Alignment
