/-
  FuzzyPath — what the table finds.

  * `Scanned` are the bounds that both scans give; with them the table covers
    all alignments (`Scanned.trail_iff`) and no index leaves it;
  * `Scanned.best_of_trail`: if any alignment endures, the table finds the best
    of them, and of those of one worth the one that ends first and is then the
    latest, compared from its end.  The result is that alignment as it is read
    back;
  * `Scanned.best_of_no_trail`: if none endures, a result has the score that
    stands for no alignment, and its path leaves the columns.
-/
import FuzzyPath.Alignment.Solve
import FuzzyPath.Proofs.Alignment.Filling
import FuzzyPath.Proofs.Fallible

namespace FuzzyPath.Alignment

open BoundedUnit

theorem forall₂_getLastD {α β : Type} {R : α → β → Prop} {a : α} {b : β} (hab : R a b) :
    ∀ {l : List α} {l' : List β}, List.Forall₂ R l l' → R (l.getLastD a) (l'.getLastD b)
  | [], [], .nil => hab
  | _ :: _, _ :: _, .cons h hs => by
    rw [List.getLastD_cons, List.getLastD_cons]
    exact forall₂_getLastD h hs

theorem add_length_le_getLastD : ∀ {l : List Nat} {a : Nat}, (a :: l).Pairwise (· < ·) →
    a + l.length ≤ l.getLastD a
  | [], a, _ => le_rfl
  | b :: l, a, h => by
    obtain ⟨hlt, hinc⟩ := List.pairwise_cons.1 h
    have hab := hlt b (List.mem_cons_self ..)
    have hrest := add_length_le_getLastD hinc
    rw [List.length_cons, List.getLastD_cons]
    omega

theorem le_getLastD : ∀ {l : List Nat} {a : Nat}, (a :: l).Pairwise (· < ·) →
    ∀ b ∈ a :: l, b ≤ l.getLastD a
  | [], a, _, b, hb => by simp at hb; simp [hb]
  | c :: l, a, h, b, hb => by
    obtain ⟨hlt, hinc⟩ := List.pairwise_cons.1 h
    rw [List.getLastD_cons]
    rcases List.mem_cons.1 hb with rfl | hb
    · exact (hlt c (List.mem_cons_self ..)).le.trans (le_getLastD hinc c (List.mem_cons_self ..))
    · exact le_getLastD hinc b hb

theorem headD_le_getLastD : ∀ {l : List Nat}, l.Pairwise (· < ·) → l.headD 0 ≤ l.getLastD 0
  | [], _ => le_rfl
  | _ :: _, h => by
    rw [List.getLastD_cons]
    exact le_getLastD h _ (List.mem_cons_self ..)

theorem window_extract (p : Problem) (origin stop : Nat) :
    Window p origin (p.columns.extract origin stop).toList := by
  intro t c hc
  rw [Array.toList_extract, List.extract_eq_take_drop, List.getElem?_take] at hc
  split at hc
  · rwa [List.getElem?_drop, Array.getElem?_toList] at hc
  · simp at hc

theorem mem_of_trace {origin wide height : Nat} : ∀ {rows : List (List Cell)} {acc : List Nat}
    {below : List Cell} {j : Nat} {path : List Nat},
    trace origin wide height acc below j rows = .ok path → ∀ i ∈ j :: acc, i ∈ path
  | [], acc, below, j, path, h, i, hi => by
    simp only [trace, Except.ok.injEq] at h
    exact h ▸ hi
  | row :: rows, acc, below, j, path, h, i, hi => by
    rw [trace] at h
    split at h
    · cases h
    · split at h
      · exact mem_of_trace h i (List.mem_cons_of_mem _ hi)
      · cases h

/-- The bounds of the units of a query that is not empty, and that the table is
    used for. -/
structure Scanned (p : Problem) (first last : List Nat) : Prop where
  nonempty : p.query ≠ []
  earliest_eq : earliest p.accepts p.query p.columns.toList = some first
  latest_eq : latest p.accepts p.query p.columns.toList = some last
  cells_le : p.query.length * width first last ≤ maxCells

/-- The units of the query with their bounds. -/
def boundedUnits (p : Problem) (first last : List Nat) : List BoundedUnit :=
  p.query.zip (first.zip last)

namespace Scanned
variable {p : Problem} {first last : List Nat} (h : Scanned p first last)
include h

theorem embeds_first : p.IsAlignment first := earliest_embeds _ h.earliest_eq

theorem embeds_last : p.IsAlignment last := latest_embeds h.latest_eq

theorem first_le {path : List Nat} (hpath : p.IsAlignment path) :
    List.Forall₂ (· ≤ ·) first path := by
  obtain ⟨first', hfirst, hle⟩ := earliest_least _ hpath
  obtain rfl : first = first' := Option.some.inj (h.earliest_eq.symm.trans hfirst)
  exact hle

theorem le_last {path : List Nat} (hpath : p.IsAlignment path) :
    List.Forall₂ (· ≤ ·) path last := by
  obtain ⟨last', hlast, hle⟩ := latest_greatest hpath
  obtain rfl : last = last' := Option.some.inj (h.latest_eq.symm.trans hlast)
  exact hle

theorem length_first : first.length = p.query.length := h.embeds_first.length_eq.symm

theorem length_last : last.length = p.query.length := h.embeds_last.length_eq.symm

theorem length_le_width : p.query.length ≤ width first last := by
  cases first with
  | nil => exact absurd (List.length_eq_zero_iff.1 h.length_first.symm) h.nonempty
  | cons a first =>
    have hinc := add_length_le_getLastD h.embeds_first.increasing
    have hle := forall₂_getLastD (le_refl 0) (h.first_le h.embeds_last)
    have hlen := h.length_first
    rw [List.getLastD_cons] at hle
    rw [List.length_cons] at hlen
    rw [width, List.headD_cons]
    omega

theorem length_le : p.query.length ≤ 1024 := by
  have hsquare := (Nat.mul_le_mul_left p.query.length h.length_le_width).trans h.cells_le
  rw [maxCells] at hsquare
  by_contra hlong
  have hlarge := Nat.mul_le_mul (not_le.1 hlong) (not_le.1 hlong)
  omega

theorem boundedUnits_ne_nil : boundedUnits p first last ≠ [] := by
  intro hnil
  have hlen := congrArg List.length hnil
  simp only [boundedUnits, List.length_zip, h.length_first, h.length_last, List.length_nil,
    Nat.min_self] at hlen
  exact h.nonempty (List.length_eq_zero_iff.1 hlen)

theorem query_boundedUnits : query (boundedUnits p first last).reverse = p.query := by
  rw [query, List.reverse_reverse, boundedUnits, List.map_fst_zip]
  rw [List.length_zip, h.length_first, h.length_last, Nat.min_self]

/-- Every alignment lies within the bounds. -/
theorem bounds {path : List Nat} (hpath : p.IsAlignment path) :
    List.Forall₂ Bounds (boundedUnits p first last).reverse path.reverse := by
  rw [List.forall₂_reverse_iff, boundedUnits]
  have hlow := h.first_le hpath
  have hhigh := h.le_last hpath
  have hlen := hpath.length_eq
  clear hpath h
  generalize p.query = query at hlen
  induction hlow generalizing last query with
  | nil => cases hhigh; simp
  | cons hlo _ ih =>
    cases hhigh with
    | cons hhi hhigh =>
      cases query with
      | nil => simp at hlen
      | cons q query => exact .cons ⟨hlo, hhi⟩ (ih hhigh query (by simpa using hlen))

/-- The trails through the table are the enduring alignments. -/
theorem trail_iff {path : List Nat} {v : Int} :
    Trail p (boundedUnits p first last).reverse path v ↔
      p.IsAlignment path.reverse ∧ p.Endures p.query path.reverse ∧
        p.worth p.query path.reverse = v := by
  rw [Alignment.trail_iff (by simpa using h.boundedUnits_ne_nil), h.query_boundedUnits]
  constructor
  · rintro ⟨halign, -, hend, hworth⟩; exact ⟨halign, hend, hworth⟩
  · rintro ⟨halign, hend, hworth⟩
    exact ⟨halign, by simpa using h.bounds halign, hend, hworth⟩

theorem last_lt_size : last.getLastD 0 < p.columns.size := by
  cases hlast : last with
  | nil =>
    rw [hlast] at h
    exact absurd (List.length_eq_zero_iff.1 h.length_last.symm) h.nonempty
  | cons b lasts =>
    rw [List.getLastD_cons, ← Array.length_toList]
    refine h.embeds_last.lt_length ?_
    rw [hlast]
    exact List.getLastD_mem_cons

theorem head_le_last : first.headD 0 ≤ last.getLastD 0 :=
  (headD_le_getLastD h.embeds_first.increasing).trans
    (forall₂_getLastD (le_refl 0) (h.first_le h.embeds_last))

theorem width_le : width first last ≤ 1048576 := by
  have hpos := List.length_pos_iff.2 h.nonempty
  have hcells := h.cells_le
  rw [maxCells] at hcells
  exact (Nat.le_mul_of_pos_left _ hpos).trans hcells

theorem length_window :
    (p.columns.extract (first.headD 0) (first.headD 0 + width first last)).toList.length =
      width first last := by
  have hlast := h.last_lt_size
  have hhead := h.head_le_last
  rw [Array.length_toList, Array.size_extract, width]
  omega

/-- All bounds lie on these columns. -/
theorem inside {u : BoundedUnit} (hu : u ∈ boundedUnits p first last) :
    Inside (first.headD 0)
      (p.columns.extract (first.headD 0) (first.headD 0 + width first last)).toList u := by
  intro j hj
  obtain ⟨hlo, hhi⟩ := hj
  obtain ⟨hfirst, hlast⟩ := List.of_mem_zip (List.of_mem_zip hu).2
  have hhead := h.head_le_last
  have hlow : first.headD 0 ≤ u.2.1 := by
    have hinc := h.embeds_first.increasing
    clear h hhead
    cases first with
    | nil => simp at hfirst
    | cons a first =>
      rw [List.headD_cons]
      rcases List.mem_cons.1 hfirst with heq | hmem
      · exact heq.ge
      · exact ((List.pairwise_cons.1 hinc).1 _ hmem).le
  have hhigh : u.2.2 ≤ last.getLastD 0 := by
    have hinc := h.embeds_last.increasing
    clear h hhead
    cases last with
    | nil => simp at hlast
    | cons b last => rw [List.getLastD_cons]; exact le_getLastD hinc _ hlast
  rw [h.length_window, width]
  omega

/-- The table is filled, and the result is read off its last row. -/
theorem exists_filled (hp : p.Moderate) : ∃ row rows,
    Filled p (first.headD 0)
      (p.columns.extract (first.headD 0) (first.headD 0 + width first last)).toList
      (boundedUnits p first last).reverse row rows ∧
    (1 < p.query.length → ∃ rows', rows = row :: rows') ∧
    best p first last =
      (let found := bestEnd (first.getLastD 0) (last.getLastD 0) unreached (first.getLastD 0)
        (first.headD 0) row
      (trace (first.headD 0) (width first last) p.query.length [] [] found.2 rows).map
        fun path => ⟨found.1, path⟩) := by
  have hshort := h.length_le
  have hcount := h.length_first
  have hcount' := h.length_last
  have hin : ∀ u ∈ boundedUnits p first last, _ := fun u hu => h.inside hu
  obtain ⟨q, query, hquery⟩ := List.exists_cons_of_ne_nil h.nonempty
  obtain ⟨origin, firsts, rfl⟩ : ∃ origin firsts, first = origin :: firsts :=
    List.exists_cons_of_length_eq_add_one (by rw [hcount, hquery, List.length_cons])
  obtain ⟨stop, lasts, rfl⟩ : ∃ stop lasts, last = stop :: lasts :=
    List.exists_cons_of_length_eq_add_one (by rw [hcount', hquery, List.length_cons])
  have hwin := window_extract p origin (origin + width (origin :: firsts) (stop :: lasts))
  have hnarrow := h.length_window.trans_le h.width_le
  simp only [boundedUnits, hquery, List.zip_cons_cons, List.headD_cons, List.length_cons,
    List.reverse_cons] at hin hshort hcount hcount' hnarrow ⊢
  simp only [best, hquery]
  generalize width (origin :: firsts) (stop :: lasts) = wide at hin hwin hnarrow ⊢
  generalize (p.columns.extract origin (origin + wide)).toList = columns at hin hwin hnarrow ⊢
  have hfirst := Filled.first hp hwin (hin (q, origin, stop) (List.mem_cons_self ..)) rfl
  have hmem : ∀ c ∈ columns, c ∈ p.columns.toList := fun c hc => by
    obtain ⟨t, ht⟩ := List.getElem?_of_mem hc
    exact List.mem_of_getElem? (by rw [Array.getElem?_toList]; exact hwin t c ht)
  rw [firstRow_spec hp q stop columns origin [] hmem]
  obtain ⟨row, above, hrows, habove, hfilled⟩ := rowsBelow_spec hp hwin (by omega)
    (query.zip (firsts.zip lasts)) [(q, origin, stop)] _ [] (by simp)
    (by simp; omega) (fun u hu => hin u (List.mem_cons_of_mem _ hu)) hfirst
  refine ⟨row, (row :: above).dropLast, hfilled, ?_, ?_⟩
  · intro hlong
    cases above with
    | nil => simp at habove; omega
    | cons row' above => exact ⟨_, rfl⟩
  · dsimp only at hrows
    simp only [bind, Except.bind, List.reverse_nil, List.nil_append, hrows, List.getLastD_cons,
      List.length_cons]
    cases trace origin wide (query.length + 1) [] [] _ (row :: above).dropLast <;> rfl

/-- Every alignment ends between the bounds of the last unit. -/
theorem end_bounds {j : Nat} {path : List Nat} {v : Int}
    (htrail : Trail p (boundedUnits p first last).reverse (j :: path) v) :
    first.getLastD 0 ≤ j ∧ j ≤ last.getLastD 0 := by
  have halign := (h.trail_iff.1 htrail).1
  have hlow := forall₂_getLastD (le_refl 0) (h.first_le halign)
  have hhigh := forall₂_getLastD (le_refl 0) (h.le_last halign)
  simpa using And.intro hlow hhigh

/-- If an alignment endures, the table finds the best of those that do.  Of
    several, it is the one that ends first, and then the latest from its end. -/
theorem best_of_trail (hp : p.Moderate) {path₀ : List Nat} {v₀ : Int}
    (h₀ : Trail p (boundedUnits p first last).reverse path₀ v₀) :
    ∃ j path v,
      best p first last = (readBack (j :: path).reverse).map (fun found => ⟨v, found⟩) ∧
      Trail p (boundedUnits p first last).reverse (j :: path) v ∧
      (∀ path' v', Trail p (boundedUnits p first last).reverse path' v' → v' ≤ v) ∧
      ∀ j' path', Trail p (boundedUnits p first last).reverse (j' :: path') v →
        j ≤ j' ∧ (j' = j → AtMost path' path) := by
  obtain ⟨row, rows, hfilled, -, hbest⟩ := h.exists_filled hp
  obtain ⟨hfound, hends⟩ := bestEnd_spec (first.getLastD 0) (last.getLastD 0) row
    (first.headD 0) unreached (first.getLastD 0)
  generalize bestEnd _ _ unreached _ _ row = found at hfound hends hbest
  -- No trail is worth more than the cell it ends on, nor that more than the one chosen.
  have hcell : ∀ j path v, Trail p (boundedUnits p first last).reverse (j :: path) v →
      v ≤ found.1 ∧ (unreached < found.1 → j < found.2 → v < found.1) := by
    intro j path v htrail
    obtain ⟨t, cell, rfl, hcell, hle⟩ := hfilled.complete j path v htrail
    obtain ⟨hlow, hhigh⟩ := h.end_bounds htrail
    obtain ⟨hmax, hstrict⟩ := hends t cell hcell hlow hhigh
    exact ⟨hle.trans hmax, fun hreached hj => hle.trans_lt (hstrict hreached hj)⟩
  have hsome : ∀ path v, Trail p (boundedUnits p first last).reverse path v → v ≤ found.1 := by
    intro path v htrail
    cases path with
    | nil => exact absurd rfl htrail.path_ne_nil
    | cons j path => exact (hcell j path v htrail).1
  have hreached : unreached < found.1 := (h₀.unreached_lt hp).trans_le (hsome path₀ v₀ h₀)
  rcases hfound with rfl | ⟨t, cell, hget, rfl, -⟩
  · exact absurd hreached (lt_irrefl _)
  · obtain ⟨path, htrail, htrace, hgreatest⟩ := hfilled.sound t cell hget hreached
    refine ⟨_, path, cell.score, ?_, htrail, hsome, ?_⟩
    · simp only [hbest, htrace, readBack, List.reverse_reverse]
    · intro j' path' htrail'
      refine ⟨not_lt.1 fun hlt => ?_, fun heq => hgreatest path' (heq ▸ htrail')⟩
      exact absurd ((hcell j' path' _ htrail').2 hreached hlt) (lt_irrefl _)

/-- The alignment of a single unit has no gap, and so it endures. -/
theorem one_lt_length_of_no_trail
    (hnone : ∀ path v, ¬ Trail p (boundedUnits p first last).reverse path v) :
    1 < p.query.length := by
  by_contra hone
  refine hnone first.reverse _ (h.trail_iff.2 ⟨?_, ?_, rfl⟩)
  · rw [List.reverse_reverse]; exact h.embeds_first
  · intro before k j after hcut
    have hlen := congrArg List.length hcut
    simp only [List.reverse_reverse, h.length_first, List.length_append, List.length_cons] at hlen
    omega

/-- If no alignment endures, a result has the score that stands for none, and
    its path goes through the column that stands for none. -/
theorem best_of_no_trail (hp : p.Moderate)
    (hnone : ∀ path v, ¬ Trail p (boundedUnits p first last).reverse path v)
    {sol : Solution} (hsol : best p first last = .ok sol) :
    sol.score = unreached ∧ noColumn.toNat ∈ sol.path := by
  obtain ⟨row, rows, hfilled, hlong, hbest⟩ := h.exists_filled hp
  obtain ⟨hfound, -⟩ := bestEnd_spec (first.getLastD 0) (last.getLastD 0) row
    (first.headD 0) unreached (first.getLastD 0)
  have hlow : ∀ (t : Nat) (cell : Cell), row[t]? = some cell → cell.score ≤ unreached := by
    intro t cell hcell
    by_contra hscore
    obtain ⟨path, htrail, -⟩ := hfilled.sound t cell hcell (not_le.1 hscore)
    exact hnone _ _ htrail
  obtain ⟨rows', rfl⟩ := hlong (h.one_lt_length_of_no_trail hnone)
  generalize bestEnd _ _ unreached _ _ row = found at hfound hbest
  obtain rfl : found = (unreached, first.getLastD 0) := by
    rcases hfound with hfound | ⟨t, cell, hcell, -, hlt⟩
    · exact hfound
    · exact absurd hlt (not_lt.2 (hlow t cell hcell))
  have hhead := headD_le_getLastD h.embeds_first.increasing
  have hend : first.getLastD 0 - first.headD 0 < row.length := by
    have hle := forall₂_getLastD (le_refl 0) (h.first_le h.embeds_last)
    rw [hfilled.length, h.length_window, width]
    omega
  have hcell := hfilled.empty _ _ (List.getElem?_eq_getElem hend) (hlow _ _
    (List.getElem?_eq_getElem hend))
  rw [hbest] at hsol
  simp only [trace, if_neg (not_lt.2 hhead), List.append_nil, List.getElem?_eq_getElem hend, hcell,
    Cell.empty] at hsol
  obtain ⟨path, htrace, rfl⟩ := map_eq_ok hsol
  exact ⟨rfl, mem_of_trace htrace _ (List.mem_cons_self ..)⟩

/-- Where a gap loses at most 511 a column, no alignment loses much. -/
theorem floor_lt_worth (hp : p.Moderate) (hopen : p.prices.gapOpen ≤ 511)
    (hpass : p.prices.gapExtend + p.prices.componentGap ≤ 511) {path : List Nat}
    (hpath : p.IsAlignment path) : -(2 : Int) ^ 29 < p.worth p.query path := by
  have hgains := hp.gains_nonneg p.query path
  have hlow := h.first_le hpath
  have hhigh := forall₂_getLastD (le_refl 0) (h.le_last hpath)
  have hinc := hpath.increasing
  have hwide := h.width_le
  rw [width] at hwide
  rw [Problem.worth]
  cases path with
  | nil => simp only [Problem.steps]; omega
  | cons j path =>
    obtain ⟨a, first, ha, -, rfl⟩ := List.forall₂_cons_right_iff.1 hlow
    rw [List.getLastD_cons] at hhigh
    rw [List.headD_cons] at hwide
    have hsteps := Problem.neg_le_steps hp.consecutive.1 hopen hp.gapExtend.1 hp.componentGap.1
      hpass path j hinc fun i hi => (le_getLastD hinc i hi).trans hhigh
    omega

end Scanned

end FuzzyPath.Alignment
