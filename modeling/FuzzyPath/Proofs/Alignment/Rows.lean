/-
  FuzzyPath — what a row of the table holds, given the row above it.

  The scores above are a function `above` of the column; a match on the column
  `k` above offers to the column `j` its score with the step from `k` to `j`
  (`offersTo`).  Scores at or below `unreached` offer nothing, and no offer at
  or below `unreached` is taken.

  * `IsBest` says that a gap is the best of some offers, and from which column;
    of two of one worth it is the one from further right.  The gap itself stores
    that column in 32 bits only;
  * `IsBest.skip` and `IsBest.run`: going one column further keeps this, for
    the gap and for the match directly before;
  * `CellHolds` is what this makes of a cell, and `sweep_spec` of all cells of
    a row.
-/
import FuzzyPath.Proofs.Alignment.Trail

namespace FuzzyPath

theorem saturate32_of_mem {x : Int} (hlow : -2147483648 ≤ x) (hhigh : x ≤ 2147483647) :
    saturate32 x = x := by
  rw [saturate32, if_neg (by omega), if_neg (by omega)]

namespace Alignment

/-! ## The best of some offers -/

/-- `g` is the best of some offers, each a source with what it is worth, and it is
    the one of the source `k`. -/
structure IsBest (offers : Nat → Int → Prop) (g : Gap) (k : Nat) : Prop where
  stored : g.source = k.toUInt32
  offered : unreached < g.score → offers k g.score
  best : ∀ i w, offers i w → unreached < w → w ≤ g.score ∧ (k < i → w < g.score)

namespace IsBest
variable {offers offers' : Nat → Int → Prop} {g g' : Gap} {k k' : Nat}

theorem congr (h : IsBest offers g k) (hiff : ∀ i w, unreached < w → (offers i w ↔ offers' i w)) :
    IsBest offers' g k :=
  ⟨h.stored, fun hg => (hiff _ _ hg).1 (h.offered hg),
    fun i w hi hw => h.best i w ((hiff i w hw).2 hi) hw⟩

theorem of_le (hstored : g.source = k.toUInt32) (hg : g.score ≤ unreached)
    (hnone : ∀ i w, offers i w → w ≤ unreached) : IsBest offers g k :=
  ⟨hstored, fun h => absurd h (not_lt.2 hg),
    fun i w hi hw => absurd hw (not_lt.2 (hnone i w hi))⟩

/-- One offer is the best of itself. -/
theorem single {s : Int} :
    IsBest (fun i w => unreached < s ∧ i = k ∧ w = s) ⟨s, k.toUInt32⟩ k :=
  ⟨rfl, fun h => ⟨h, rfl, rfl⟩, by
    rintro i w ⟨-, rfl, rfl⟩ -
    exact ⟨le_rfl, fun h => absurd h (lt_irrefl _)⟩⟩

/-- All offers become worth less by the same amount. -/
theorem lower {s cost : Int} {source : UInt32} (h : IsBest offers ⟨s, source⟩ k) (s' : Int)
    (hcost : 0 ≤ cost) (hreached : unreached < s → s' = s - cost)
    (hunreached : s ≤ unreached → s' ≤ unreached) :
    IsBest (fun i w => offers i (w + cost)) ⟨s', source⟩ k := by
  have hs : unreached < s' → s' = s - cost := fun hs' => by
    by_contra hne
    exact absurd hs' (not_lt.2 (hunreached (not_lt.1 fun hs => hne (hreached hs))))
  refine ⟨h.stored, ?_, ?_⟩
  · intro hs'
    have hsum := hs hs'
    simp only at hs' ⊢
    rw [hsum, sub_add_cancel]
    exact h.offered (show unreached < s by omega)
  · intro i w hi hw
    obtain ⟨hle, hlt⟩ := h.best i (w + cost) hi (by omega)
    simp only at hle hlt ⊢
    have hsum := hreached (by omega)
    exact ⟨by omega, fun hki => by have := hlt hki; omega⟩

/-- The better of two, of which the one that is preferred has its sources
    further right. -/
theorem or (h : IsBest offers g k) (h' : IsBest offers' g' k')
    (hright : ∀ i w i' w', offers i w → offers' i' w' → i' < i) :
    ∃ i, IsBest (fun i w => offers i w ∨ offers' i w)
      (if unreached < g.score ∧ g'.score ≤ g.score then g else g') i := by
  split
  · rename_i hg
    refine ⟨k, h.stored, fun _ => Or.inl (h.offered hg.1), ?_⟩
    rintro i w (hi | hi) hw
    · exact h.best i w hi hw
    · have hle := (h'.best i w hi hw).1
      have hki := hright _ _ i w (h.offered hg.1) hi
      exact ⟨by omega, fun hlt => by omega⟩
  · rename_i hg
    refine ⟨k', h'.stored, fun hg' => Or.inr (h'.offered hg'), ?_⟩
    rintro i w (hi | hi) hw
    · have hle := (h.best i w hi hw).1
      exact ⟨by omega, fun _ => by omega⟩
    · exact h'.best i w hi hw

end IsBest

/-! ## Offers from a row -/

/-- The largest score of a row for which no sum leaves the 32-bit range. -/
def scoreCap : Int := 1073741824

section
variable {p : Problem} {above : Nat → Int}

/-- What the matches on the columns before `n` offer to the column `j`. -/
def offersTo (p : Problem) (above : Nat → Int) (n j : Nat) (k : Nat) (w : Int) : Prop :=
  k < n ∧ unreached < above k ∧ w = above k + p.step k j

/-- The score above the column before `j`. -/
def scoreBefore (above : Nat → Int) : Nat → Int
  | 0 => unreached
  | k + 1 => above k

theorem scoreBefore_le (hcap : ∀ k, above k ≤ scoreCap) : ∀ j, scoreBefore above j ≤ scoreCap
  | 0 => by simp [scoreBefore, unreached, scoreCap]
  | k + 1 => hcap k

theorem isBest_none (j n : Nat) (hn : ∀ k < n, above k ≤ unreached) :
    IsBest (offersTo p above n j) Gap.none noColumn.toNat :=
  ⟨rfl, fun h => absurd h (lt_irrefl _),
    fun k _ hk _ => absurd hk.2.1 (not_lt.2 (hn k hk.1))⟩

theorem offersTo_le (hp : p.Moderate) (hcap : ∀ k, above k ≤ scoreCap) {n j k : Nat} {w : Int}
    (h : offersTo p above n j k w) : w ≤ scoreCap + 4096 := by
  have := hcap k
  have := hp.step_le k j
  rw [h.2.2]; omega

/-- On the column `j`, each gap before becomes longer, and one is entered from
    the column before `j`. -/
theorem offersTo_succ {j : Nat} {c : Column} (hc : p.columns[j]? = some c) {fee : Int}
    (hfee : fee = if c.isSeparator then p.prices.componentGap else 0) (k : Nat) (w : Int) :
    offersTo p above j (j + 1) k w ↔
      (unreached < scoreBefore above j ∧ k = j - 1 ∧
        w + fee + p.prices.gapOpen = scoreBefore above j) ∨
      offersTo p above (j - 1) j k (w + fee + p.prices.gapExtend) := by
  cases j with
  | zero => simp [offersTo, scoreBefore]
  | succ i =>
    simp only [offersTo, scoreBefore, Nat.add_sub_cancel]
    rcases lt_trichotomy k i with hki | rfl | hki
    · rw [Problem.step_skip hc (by omega), ← hfee]
      constructor
      · rintro ⟨-, hk, rfl⟩; exact Or.inr ⟨hki, hk, by ring⟩
      · rintro (⟨-, rfl, -⟩ | ⟨-, hk, hw⟩)
        · omega
        · exact ⟨by omega, hk, by omega⟩
    · rw [Problem.step_open hc, ← hfee]
      constructor
      · rintro ⟨-, hk, rfl⟩; exact Or.inl ⟨hk, rfl, by ring⟩
      · rintro (⟨hk, -, hw⟩ | ⟨hlt, -⟩)
        · exact ⟨by omega, hk, by omega⟩
        · omega
    · constructor
      · rintro ⟨hlt, -⟩; omega
      · rintro (⟨-, rfl, -⟩ | ⟨hlt, -⟩) <;> omega

theorem charge_eq {s cost : Int} (hs : unreached < s) (hs' : s ≤ scoreCap + 4096)
    (hcost : 0 ≤ cost) (hcost' : cost ≤ Weights.maxCharWeight) :
    saturate32 (s - cost) = s - cost := by
  simp only [unreached, scoreCap, Weights.maxCharWeight] at *
  exact saturate32_of_mem (by omega) (by omega)

/-- A separator lowers what all gaps that are open on it offer. -/
theorem IsBest.cross {offers : Nat → Int → Prop} {g : Gap} {k : Nat} (h : IsBest offers g k)
    (hg : unreached < g.score → g.score ≤ scoreCap + 4096) {cost : Int} (hcost : 0 ≤ cost)
    (hcost' : cost ≤ Weights.maxCharWeight) (crossed : Bool) :
    IsBest (fun i w => offers i (w + if crossed then cost else 0))
      (if crossed ∧ unreached < g.score then ⟨saturate32 (g.score - cost), g.source⟩ else g)
      k := by
  cases crossed with
  | false => simpa using h
  | true =>
    simp only [if_true, true_and]
    by_cases hs : unreached < g.score
    · rw [if_pos hs]
      exact h.lower _ hcost (fun _ => charge_eq hs (hg hs) hcost hcost')
        fun hle => absurd hs (not_lt.2 hle)
    · rw [if_neg hs]
      exact h.lower g.score hcost (fun hs' => absurd hs' hs) id

/-- The open gap after one column more. -/
theorem IsBest.skip (hp : p.Moderate) (hcap : ∀ k, above k ≤ scoreCap) {j : Nat} {c : Column}
    (hc : p.columns[j]? = some c) {gap : Gap} {k : Nat}
    (h : IsBest (offersTo p above (j - 1) j) gap k) :
    ∃ k', IsBest (offersTo p above j (j + 1))
      (gap.skip p.prices (scoreBefore above j) (j - 1) c) k' := by
  have hbefore := scoreBefore_le hcap j
  have hgap : unreached < gap.score → gap.score ≤ scoreCap + 4096 := fun hg =>
    offersTo_le hp hcap (h.offered hg)
  have hopened := (IsBest.single (k := j - 1) (s := scoreBefore above j)).lower
    (if unreached < scoreBefore above j then
      saturate32 (scoreBefore above j - p.prices.gapOpen) else unreached) hp.gapOpen.1
    (fun hs => by rw [if_pos hs]; exact charge_eq hs (by omega) hp.gapOpen.1 hp.gapOpen.2)
    (fun hs => by rw [if_neg (not_lt.2 hs)])
  have hextended := h.lower
    (if unreached < gap.score then
      saturate32 (gap.score - p.prices.gapExtend) else unreached) hp.gapExtend.1
    (fun hs => by rw [if_pos hs]; exact charge_eq hs (hgap hs) hp.gapExtend.1 hp.gapExtend.2)
    (fun hs => by rw [if_neg (not_lt.2 hs)])
  obtain ⟨k', hnext⟩ := hopened.or hextended fun i w i' w' hi hk => by
    obtain ⟨-, rfl, -⟩ := hi
    exact hk.1
  refine ⟨k', (hnext.cross (fun hs => ?_) hp.componentGap.1 hp.componentGap.2
    c.isSeparator).congr ?_⟩
  · rcases hnext.offered hs with ⟨-, -, hw⟩ | hw
    · have := hp.gapOpen.1; omega
    · have := offersTo_le hp hcap hw
      have := hp.gapExtend.1; omega
  · intro k w _
    exact (offersTo_succ hc rfl k w).symm

/-- The gap or the match directly before, whichever offers more. -/
theorem IsBest.run (hp : p.Moderate) (hcap : ∀ k, above k ≤ scoreCap) {j : Nat} {gap : Gap}
    {k : Nat} (h : IsBest (offersTo p above (j - 1) j) gap k) {run : Int}
    (hrun : run = if unreached < scoreBefore above j then
      saturate32 (scoreBefore above j + p.prices.consecutive) else unreached) :
    ∃ k', IsBest (offersTo p above j j)
      (if gap.score ≤ run then ⟨run, (j - 1).toUInt32⟩ else gap) k' := by
  have hbefore := scoreBefore_le hcap j
  obtain ⟨hbonus, hbonus'⟩ := hp.consecutive
  have hsum : unreached < scoreBefore above j →
      run = scoreBefore above j + p.prices.consecutive := fun hs => by
    rw [hrun, if_pos hs]
    simp only [unreached, scoreCap, Weights.maxCharWeight] at *
    exact saturate32_of_mem (by omega) (by omega)
  have hdirect : IsBest (fun i w => unreached < scoreBefore above j ∧ i = j - 1 ∧
      w = scoreBefore above j + p.prices.consecutive) ⟨run, (j - 1).toUInt32⟩ (j - 1) := by
    refine ⟨rfl, ?_, ?_⟩
    · intro hs
      by_cases hb : unreached < scoreBefore above j
      · exact ⟨hb, rfl, hsum hb⟩
      · rw [hrun, if_neg hb] at hs; exact absurd hs (lt_irrefl _)
    · rintro i w ⟨hb, rfl, rfl⟩ _
      exact ⟨(hsum hb).ge, fun hlt => absurd hlt (lt_irrefl _)⟩
  obtain ⟨k', hor⟩ := hdirect.or h fun i w i' w' hi hk => by
    obtain ⟨-, rfl, -⟩ := hi
    exact hk.1
  have hboth : IsBest (offersTo p above j j) _ k' := hor.congr fun k w _ => ?_
  · by_cases hle : gap.score ≤ run
    · rw [if_pos hle]
      by_cases hs : unreached < run
      · rw [if_pos ⟨hs, hle⟩] at hboth
        exact ⟨k', hboth⟩
      · rw [if_neg fun hand => hs hand.1] at hboth
        refine ⟨j - 1, .of_le rfl (not_lt.1 hs) fun i w hi => ?_⟩
        by_contra hw
        have := (hboth.best i w hi (not_le.1 hw)).1
        omega
    · rw [if_neg hle]
      rw [if_neg fun hand => hle hand.2] at hboth
      exact ⟨k', hboth⟩
  · cases j with
    | zero => simp [offersTo, scoreBefore]
    | succ i =>
      simp only [offersTo, scoreBefore, Nat.add_sub_cancel]
      constructor
      · rintro (⟨hb, rfl, rfl⟩ | ⟨hlt, hk, hw⟩)
        · exact ⟨by omega, hb, by rw [Problem.step_succ]⟩
        · exact ⟨by omega, hk, hw⟩
      · rintro ⟨hlt, hk, hw⟩
        rcases Nat.lt_succ_iff_lt_or_eq.1 hlt with hki | rfl
        · exact Or.inr ⟨hki, hk, hw⟩
        · exact Or.inl ⟨hk, rfl, by rw [hw, Problem.step_succ]⟩

end

/-! ## Cells -/

/-- What the cell of the unit `u` on the column `j` holds, and that it is reached
    from the column `k`. -/
structure CellHolds (p : Problem) (above : Nat → Int) (u : BoundedUnit) (j : Nat) (cell : Cell)
    (k : Nat) : Prop where
  empty : cell.score ≤ unreached → cell = Cell.empty
  stored : cell.back = k.toUInt32
  reached : unreached < cell.score → ∃ c w, p.columns[j]? = some c ∧ p.accepts u.1 c = true ∧
    u.Bounds j ∧ offersTo p above j j k w ∧ unreached < w ∧ cell.score = w + p.gain u.1 c
  best : ∀ c i w, p.columns[j]? = some c → p.accepts u.1 c = true → u.Bounds j →
    offersTo p above j j i w → unreached < w → w + p.gain u.1 c ≤ cell.score ∧
      (k < i → w + p.gain u.1 c < cell.score)

section
variable {p : Problem} {above : Nat → Int}

theorem matchPrice_eq (hp : p.Moderate) (q : TextUnit) {c : Column} (hc : c ∈ p.columns.toList) :
    p.matchPrice q c = .ok (p.gain q c) := by
  obtain ⟨hbase, hbase'⟩ := hp.matchBase
  obtain ⟨hcase, hcase'⟩ := hp.exactCase
  obtain ⟨hbonus, hbonus'⟩ := hp.bonus c hc
  simp only [Weights.maxCharWeight] at *
  rw [Problem.matchPrice, add32, if_pos (by omega)]
  simp only [bind, Except.bind, add32, Problem.gain]
  rw [if_pos]
  split <;> omega

theorem cellHolds_empty {u : BoundedUnit} {j : Nat}
    (hout : ∀ c, p.columns[j]? = some c → p.accepts u.1 c = true → ¬ u.Bounds j) :
    CellHolds p above u j Cell.empty noColumn.toNat where
  empty _ := rfl
  stored := rfl
  reached h := absurd h (lt_irrefl _)
  best c _ _ hc hq hu := absurd hu (hout c hc hq)

/-- The cell of a column on which the unit matches. -/
theorem cellAt_spec (hp : p.Moderate) (hcap : ∀ k, above k ≤ scoreCap) {u : BoundedUnit} {j : Nat}
    {c : Column} (hc : p.columns[j]? = some c) (hq : p.accepts u.1 c = true) (hu : u.Bounds j)
    {gap : Gap} {k : Nat} (hgap : IsBest (offersTo p above (j - 1) j) gap k) :
    ∃ cell k', cellAt p u.1 gap (scoreBefore above j) j c = .ok cell ∧
      CellHolds p above u j cell k' := by
  have hmem : c ∈ p.columns.toList :=
    List.mem_of_getElem? (by rwa [Array.getElem?_toList])
  obtain ⟨k', hbest⟩ := hgap.run hp hcap rfl
  simp only [cellAt]
  generalize (if gap.score ≤ _ then _ else gap) = best at hbest ⊢
  have hgain := hp.gain_nonneg u.1 hmem
  have hgain' := hp.gain_le u.1 hmem
  by_cases hs : best.score ≤ unreached
  · rw [if_pos hs]
    refine ⟨_, noColumn.toNat, rfl, fun _ => rfl, rfl, fun h => absurd h (lt_irrefl _), ?_⟩
    intro c' i w _ _ _ hi hw
    exact absurd ((hbest.best i w hi hw).1.trans hs) (not_le.2 hw)
  · rw [if_neg hs, matchPrice_eq hp u.1 hmem]
    have hoffer := hbest.offered (not_le.1 hs)
    have hle := offersTo_le hp hcap hoffer
    have hsum : saturate32 (best.score + p.gain u.1 c) = best.score + p.gain u.1 c := by
      simp only [unreached, scoreCap] at *
      exact saturate32_of_mem (by omega) (by omega)
    refine ⟨_, k', rfl, ?_, hbest.stored,
      fun _ => ⟨c, best.score, hc, hq, hu, hoffer, not_le.1 hs, hsum⟩, ?_⟩
    · intro hlow
      have hlow' : best.score + p.gain u.1 c ≤ unreached := hsum ▸ hlow
      omega
    · intro c' i w hc' _ _ hi hw
      obtain rfl : c = c' := by simpa [hc] using hc'
      obtain ⟨hle, hlt⟩ := hbest.best i w hi hw
      simp only [hsum]
      exact ⟨by omega, fun hback => by have := hlt hback; omega⟩

/-- A sweep fills every cell from the row above. -/
theorem sweep_spec (hp : p.Moderate) (hcap : ∀ k, above k ≤ scoreCap) (u : BoundedUnit) :
    ∀ (columns : List Column) (row : List Cell) (j : Nat) (gap : Gap) (k : Nat)
      (done : List Cell), columns.length = row.length →
      (∀ t c, columns[t]? = some c → p.columns[j + t]? = some c) →
      (∀ t cell, row[t]? = some cell → cell.score = above (j + t)) →
      IsBest (offersTo p above (j - 1) j) gap k →
      ∃ cells, sweep p u.1 u.2.1 u.2.2 gap (scoreBefore above j) j done columns row =
          .ok (done.reverse ++ cells) ∧ cells.length = columns.length ∧
        ∀ t cell, cells[t]? = some cell → ∃ k', CellHolds p above u (j + t) cell k' := by
  intro columns
  induction columns with
  | nil =>
    intro row j gap k done _ _ _ _
    exact ⟨[], by simp [sweep], rfl, by simp⟩
  | cons c columns ih =>
    intro row j gap k done hlen hcolumns hrow hgap
    cases row with
    | nil => simp at hlen
    | cons cell₀ row =>
      have hc : p.columns[j]? = some c := hcolumns 0 c rfl
      have habove : cell₀.score = above j := hrow 0 cell₀ rfl
      obtain ⟨cell, k', hcell, hholds⟩ : ∃ cell k',
          (if u.2.1 ≤ j ∧ j ≤ u.2.2 ∧ p.accepts u.1 c then
            cellAt p u.1 gap (scoreBefore above j) j c else .ok Cell.empty) = .ok cell ∧
          CellHolds p above u j cell k' := by
        split
        · rename_i hin
          exact cellAt_spec hp hcap hc hin.2.2 ⟨hin.1, hin.2.1⟩ hgap
        · rename_i hout
          refine ⟨_, _, rfl, cellHolds_empty fun c' hc' hq hu => hout ⟨hu.1, hu.2, ?_⟩⟩
          obtain rfl : c = c' := by simpa [hc] using hc'
          exact hq
      obtain ⟨next, hskip⟩ := hgap.skip hp hcap hc
      obtain ⟨cells, hcells, hcount, hall⟩ := ih row (j + 1) _ next (cell :: done)
        (by simpa using hlen)
        (fun t c' hc' => by simpa [Nat.add_assoc, Nat.add_comm 1 t] using hcolumns (t + 1) c' hc')
        (fun t c' hc' => by simpa [Nat.add_assoc, Nat.add_comm 1 t] using hrow (t + 1) c' hc')
        hskip
      refine ⟨cell :: cells, ?_, by simp [hcount], ?_⟩
      · rw [sweep, hcell, habove]
        rw [List.reverse_cons, List.append_assoc] at hcells
        exact hcells
      · intro t cell' ht
        cases t with
        | zero => obtain rfl : cell = cell' := by simpa using ht
                  exact ⟨k', hholds⟩
        | succ t => simpa [Nat.add_assoc, Nat.add_comm 1 t] using hall t cell' ht

/-- The cell of the first row on the column `c` with number `j`. -/
def firstCell (p : Problem) (q : TextUnit) (last j : Nat) (c : Column) : Cell :=
  if j ≤ last ∧ p.accepts q c then ⟨p.gain q c, noColumn⟩ else Cell.empty

/-- The first row holds what the matches on it earn, up to the last column. -/
theorem firstRow_spec (hp : p.Moderate) (q : TextUnit) (last : Nat) :
    ∀ (columns : List Column) (j : Nat) (done : List Cell),
      (∀ c ∈ columns, c ∈ p.columns.toList) →
      firstRow p q last j done columns =
        .ok (done.reverse ++ columns.mapIdx fun t c => firstCell p q last (j + t) c) := by
  intro columns
  induction columns with
  | nil => intro j done _; simp [firstRow]
  | cons c columns ih =>
    intro j done hcolumns
    have hcell : (if j ≤ last ∧ p.accepts q c then
        (p.matchPrice q c).map fun price => (⟨price, noColumn⟩ : Cell) else .ok Cell.empty) =
        .ok (firstCell p q last j c) := by
      rw [matchPrice_eq hp q (hcolumns c (by simp)), firstCell]
      split <;> rfl
    have hrest := ih (j + 1) (firstCell p q last j c :: done)
      fun c' hc' => hcolumns c' (List.mem_cons_of_mem _ hc')
    rw [firstRow, hcell]
    simpa [List.mapIdx_cons, Nat.add_assoc, Nat.add_comm 1] using hrest

end

end Alignment

end FuzzyPath
