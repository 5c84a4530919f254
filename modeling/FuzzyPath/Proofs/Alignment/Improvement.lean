/-
  FuzzyPath — problems that can only be solved better.

  * `Problem.Within` says that all alignments of a problem are alignments of
    another one, and worth no less there; `Scanned.exists_solution_of_within`:
    the table then finds no less, as far as it is above nothing;
  * `Problem.Below` compares two problems column by column and price by price;
    `Below.within` and `Below.priceFrom_mono` say what this makes of alignments
    and of the prices of paths;
  * `solve_mono`: however it is found, the result is no less.
-/
import FuzzyPath.Proofs.Scoring.Crossings

namespace FuzzyPath

theorem saturate32_mono {x y : Int} (h : x ≤ y) : saturate32 x ≤ saturate32 y := by
  rw [saturate32, saturate32]
  split_ifs <;> omega

theorem saturate32_le (x : Int) : saturate32 x ≤ 2147483647 := by
  rw [saturate32]
  split_ifs <;> omega

theorem eq_of_add32 {x y v : Int} (h : add32 x y = .ok v) : v = x + y := by
  rw [add32] at h
  split at h
  · exact (Except.ok.inj h).symm
  · cases h

/-- Two lists that are related element by element end at the same place. -/
theorem getElem?_of_forall₂ {α β : Type} {R : α → β → Prop} {l : List α} {l' : List β}
    (h : List.Forall₂ R l l') : ∀ j : Nat, (l[j]? = none ∧ l'[j]? = none) ∨
      ∃ a b, l[j]? = some a ∧ l'[j]? = some b ∧ R a b := by
  induction h with
  | nil => intro j; exact .inl ⟨rfl, rfl⟩
  | cons hab _ ih =>
    intro j
    cases j with
    | zero => exact .inr ⟨_, _, rfl, rfl, hab⟩
    | succ j => simpa using ih j

namespace Alignment

/-- A query can be put on the same places of columns that accept as much. -/
theorem Embeds.of_forall₂ {accepts accepts' : TextUnit → Column → Bool}
    {columns columns' : List Column} {query : List TextUnit} {path : List Nat}
    (h : Embeds accepts columns query path)
    (hall : List.Forall₂ (fun c c' => ∀ q, accepts q c = true → accepts' q c' = true)
      columns columns') : Embeds accepts' columns' query path := by
  refine h.imp fun q _ j c hc hq => ?_
  rcases getElem?_of_forall₂ hall j with ⟨hnone, -⟩ | ⟨d, d', hd, hd', himp⟩
  · cases hnone.symm.trans hc
  · obtain rfl : d = c := Option.some.inj (hd.symm.trans hc)
    exact ⟨d', hd', himp q hq⟩

variable {p p' : Problem} {first last first' last' : List Nat}

/-! ## Problems with more alignments -/

/-- Every alignment of `p` is one of `p'`, and is worth no less there. -/
def Problem.Within (p p' : Problem) : Prop :=
  ∀ path, p.IsAlignment path → p'.IsAlignment path ∧ p.worth p.query path ≤ p'.worth p'.query path

/-- If the table is used for both, the result for `p'` is no less than that for
    `p`; results that are not positive count alike. -/
theorem Scanned.exists_solution_of_within (h : Scanned p first last)
    (h' : Scanned p' first' last') (hp : p.Moderate) (hp' : p'.Moderate) (hwithin : p.Within p')
    {sol : Solution} (hsolve : solve p = .ok (some sol)) {result : Option Solution}
    (hsolve' : solve p' = .ok result) :
    ∃ sol', result = some sol' ∧ max sol.score 1 ≤ max sol'.score 1 := by
  obtain ⟨opt, hopt⟩ := exists_isGreatest_worth hp ⟨_, h.embeds_first⟩
  obtain ⟨opt', hopt'⟩ := exists_isGreatest_worth hp' ⟨_, h'.embeds_first⟩
  obtain ⟨sol', rfl⟩ :=
    Option.isSome_iff_exists.1 ((solve_isSome_iff hsolve').2 ⟨_, h'.embeds_first⟩)
  refine ⟨sol', rfl, ?_⟩
  have hle : opt ≤ opt' := by
    obtain ⟨path, halign, rfl⟩ := hopt.1
    obtain ⟨halign', hworth⟩ := hwithin path halign
    exact hworth.trans (hopt'.2 ⟨path, halign', rfl⟩)
  -- Above the floor both results are the best there are; below it, the one for
  -- `p` is not positive.
  by_cases hfloor : -(2 : Int) ^ 29 < opt
  · obtain ⟨found, hfound, hscore⟩ := h.score_of_floor_lt hp hopt hfloor hsolve
    obtain ⟨found', hfound', hscore'⟩ :=
      h'.score_of_floor_lt hp' hopt' (hfloor.trans_le hle) hsolve'
    obtain rfl := Option.some.inj hfound
    obtain rfl := Option.some.inj hfound'
    omega
  · obtain ⟨found, hfound, hscore⟩ := h.score_nonpos hp hopt (not_lt.1 hfloor) hsolve
    obtain rfl : sol = found := Option.some.inj hfound
    omega

/-! ## Higher bonuses, lower penalties -/

/-- What `prices` give is no more, and what they take no less, than with
    `prices'`. -/
structure Prices.Below (prices prices' : Prices) : Prop where
  matchBase : prices.matchBase ≤ prices'.matchBase
  exactCase : prices.exactCase ≤ prices'.exactCase
  consecutive : prices.consecutive ≤ prices'.consecutive
  gapOpen : prices'.gapOpen ≤ prices.gapOpen
  gapExtend : prices'.gapExtend ≤ prices.gapExtend
  componentGap : prices'.componentGap ≤ prices.componentGap

/-- The same column with a bonus that is no less. -/
structure Column.Below (c c' : Column) : Prop where
  unit : c'.unit = c.unit
  isSeparator : c'.isSeparator = c.isSeparator
  bonus : c.bonus ≤ c'.bonus

/-- The same query beside the same columns, where nothing is worth less. -/
structure Problem.Below (p p' : Problem) : Prop where
  query : p'.query = p.query
  caseSensitive : p'.caseSensitive = p.caseSensitive
  columns : List.Forall₂ Column.Below p.columns.toList p'.columns.toList
  prices : p.prices.Below p'.prices

namespace Problem.Below
variable (h : p.Below p')
include h

theorem accepts_eq {c c' : Column} (hc : c.Below c') (q : TextUnit) :
    p.accepts q c = p'.accepts q c' := by
  rw [Problem.accepts, Problem.accepts, h.caseSensitive, hc.unit]

theorem accepting : List.Forall₂ (fun c c' => ∀ q, p.accepts q c = p'.accepts q c')
    p.columns.toList p'.columns.toList :=
  h.columns.imp fun _ _ hc => h.accepts_eq hc

theorem getElem?_columns (j : Nat) : (p.columns[j]? = none ∧ p'.columns[j]? = none) ∨
    ∃ c c', p.columns[j]? = some c ∧ p'.columns[j]? = some c' ∧ c.Below c' := by
  simpa using getElem?_of_forall₂ h.columns j

theorem gain_le (q : TextUnit) {c c' : Column} (hc : c.Below c') : p.gain q c ≤ p'.gain q c' := by
  have hbase := h.prices.matchBase
  have hcase := h.prices.exactCase
  have hbonus := hc.bonus
  rw [gain, gain, hc.unit]
  split <;> omega

theorem gainAt_le (q : TextUnit) (j : Nat) : p.gainAt q j ≤ p'.gainAt q j := by
  rw [gainAt, gainAt]
  rcases h.getElem?_columns j with ⟨hc, hc'⟩ | ⟨c, c', hc, hc', hle⟩
  · rw [hc, hc']; exact le_rfl
  · rw [hc, hc']; exact h.gain_le q hle

theorem gains_le : ∀ (query : List TextUnit) (path : List Nat),
    (List.zipWith p.gainAt query path).sum ≤ (List.zipWith p'.gainAt query path).sum
  | [], _ => by simp
  | _ :: _, [] => by simp
  | q :: query, j :: path => by
    rw [List.zipWith_cons_cons, List.zipWith_cons_cons, List.sum_cons, List.sum_cons]
    exact add_le_add (h.gainAt_le q j) (gains_le query path)

theorem separators_eq (i j : Nat) : p'.separators i j = p.separators i j := by
  have hmap : p'.columns.toList.map (·.isSeparator) = p.columns.toList.map (·.isSeparator) := by
    rw [← List.forall₂_eq_eq_eq, List.forall₂_map_left_iff, List.forall₂_map_right_iff]
    exact h.columns.flip.imp fun _ _ hc => hc.isSeparator
  have hcount (q : Problem) : q.separators i j =
      (((q.columns.toList.map (·.isSeparator)).drop (i + 1)).take (j - (i + 1))).countP id := by
    rw [separators, ← List.map_drop, ← List.map_take, List.countP_map]
    rfl
  rw [hcount, hcount, hmap]

theorem step_le (i j : Nat) : p.step i j ≤ p'.step i j := by
  have hextend := mul_le_mul_of_nonneg_left h.prices.gapExtend (Int.natCast_nonneg (j - i - 2))
  have hcross := mul_le_mul_of_nonneg_left h.prices.componentGap
    (Int.natCast_nonneg (p.separators i j))
  have hopen := h.prices.gapOpen
  rw [step, step, h.separators_eq]
  split
  · exact h.prices.consecutive
  · omega

theorem steps_le : ∀ path : List Nat, p.steps path ≤ p'.steps path
  | [] => le_rfl
  | [_] => le_rfl
  | i :: j :: path => by
    rw [steps, steps]
    exact add_le_add (h.step_le i j) (steps_le (j :: path))

theorem worth_le (query : List TextUnit) (path : List Nat) :
    p.worth query path ≤ p'.worth query path :=
  add_le_add (h.gains_le query path) (h.steps_le path)

theorem isAlignment_iff {path : List Nat} : p.IsAlignment path ↔ p'.IsAlignment path := by
  rw [IsAlignment, IsAlignment, h.query]
  constructor
  · exact fun hpath => hpath.of_forall₂ (h.accepting.imp fun _ _ hc q hq => hc q ▸ hq)
  · exact fun hpath => hpath.of_forall₂ (h.accepting.flip.imp fun _ _ hc q hq => (hc q).trans hq)

theorem within : p.Within p' := fun path hpath =>
  ⟨h.isAlignment_iff.1 hpath, h.query ▸ h.worth_le p.query path⟩

end Problem.Below

/-! ## Prices of paths -/

theorem Problem.gain_of_matchPrice {q : TextUnit} {c : Column} {v : Int}
    (h : p.matchPrice q c = .ok v) : v = p.gain q c := by
  obtain ⟨base, hbase, hv⟩ := bind_eq_ok h
  rw [eq_of_add32 hv, eq_of_add32 hbase]
  rfl

/-- The price of a path is a 32-bit number. -/
theorem priceFrom_le : ∀ {query : List TextUnit} {path : List Nat} {total : Int}
    {prev : Option Nat} {v : Int}, total ≤ 2147483647 →
      priceFrom p total prev query path = .ok v → v ≤ 2147483647
  | [], _, total, _, v, htotal, h => by
    simp only [priceFrom, Except.ok.injEq] at h
    omega
  | _ :: _, [], total, _, v, htotal, h => by
    simp only [priceFrom, Except.ok.injEq] at h
    omega
  | q :: query, j :: path, total, prev, v, htotal, h => by
    simp only [priceFrom] at h
    split at h
    · cases h
    · split at h
      · cases h
      · refine priceFrom_le ?_ h
        cases prev with
        | none => exact saturate32_le _
        | some i =>
          simp only [stepPrice]
          split
          · exact saturate32_le _
          · exact saturate32_le _

namespace Problem.Below
variable (h : p.Below p')
include h

theorem stepPrice_mono {total total' : Int} (htotal : total ≤ total') (i j : Nat) :
    stepPrice p total i j ≤ stepPrice p' total' i j := by
  have hextend := mul_le_mul_of_nonneg_left h.prices.gapExtend
    (show 0 ≤ (min (j - i - 1 - 1 : Nat) 2147483647 : Int) by omega)
  have hfee : (if (p'.columns.extract (i + 1) j).any (·.isSeparator) then
        p'.prices.componentGap else 0) ≤
      if (p.columns.extract (i + 1) j).any (·.isSeparator) then p.prices.componentGap else 0 := by
    simp only [crosses_iff, h.separators_eq]
    split
    · exact h.prices.componentGap
    · exact le_rfl
  rw [stepPrice, stepPrice]
  dsimp only
  split
  · exact saturate32_mono (add_le_add htotal h.prices.consecutive)
  · have hopened := saturate32_mono (sub_le_sub htotal h.prices.gapOpen)
    exact saturate32_mono (sub_le_sub
      (saturate32_mono (sub_le_sub hopened (saturate32_mono hextend))) hfee)

theorem priceFrom_mono : ∀ {query : List TextUnit} {path : List Nat} {total total' : Int}
    {prev : Option Nat} {v v' : Int}, total ≤ total' →
      priceFrom p total prev query path = .ok v → priceFrom p' total' prev query path = .ok v' →
      v ≤ v'
  | [], _, total, total', _, v, v', htotal, hv, hv' => by
    simp only [priceFrom, Except.ok.injEq] at hv hv'
    omega
  | _ :: _, [], total, total', _, v, v', htotal, hv, hv' => by
    simp only [priceFrom, Except.ok.injEq] at hv hv'
    omega
  | q :: query, j :: path, total, total', prev, v, v', htotal, hv, hv' => by
    rcases h.getElem?_columns j with ⟨hnone, -⟩ | ⟨c, c', hc, hc', hle⟩
    · simp only [priceFrom, hnone] at hv
      cases hv
    · simp only [priceFrom, hc, hc'] at hv hv'
      cases hprice : p.matchPrice q c with
      | error fault => rw [hprice] at hv; cases hv
      | ok price =>
        cases hprice' : p'.matchPrice q c' with
        | error fault => rw [hprice'] at hv'; cases hv'
        | ok price' =>
          rw [hprice] at hv
          rw [hprice'] at hv'
          have hgain : price ≤ price' := by
            rw [gain_of_matchPrice hprice, gain_of_matchPrice hprice']
            exact h.gain_le q hle
          have hsum := saturate32_mono (add_le_add htotal hgain)
          refine priceFrom_mono ?_ hv hv'
          cases prev with
          | none => exact hsum
          | some i => exact h.stepPrice_mono hsum i j

theorem greedyPath_eq (first : List Nat) : greedyPath p first = greedyPath p' first := by
  rw [greedyPath, greedyPath, h.query, latest_congr (List.forall₂_take _ h.accepting)]

end Problem.Below

/-! ## Solutions -/

/-- The score of a solution is a 32-bit number. -/
theorem score_le_of_solve (hp : p.Moderate) (hquery : p.query ≠ []) {sol : Solution}
    (hsolve : solve p = .ok (some sol)) : sol.score ≤ 2147483647 := by
  obtain ⟨first, last, hfirst, hlast⟩ :=
    exists_embeds_iff.1 ((solve_isSome_iff hsolve).1 rfl)
  by_cases hcells : p.query.length * width first last ≤ maxCells
  · have h : Scanned p first last := ⟨hquery, hfirst, hlast, hcells⟩
    obtain ⟨opt, hopt⟩ := exists_isGreatest_worth hp ⟨_, h.embeds_first⟩
    by_cases hfloor : -(2 : Int) ^ 29 < opt
    · obtain ⟨found, hfound, hscore⟩ := h.score_of_floor_lt hp hopt hfloor hsolve
      obtain rfl := Option.some.inj hfound
      obtain ⟨path, halign, hworth⟩ := hopt.1
      have hle := hp.worth_le p.query path
      have hshort := h.length_le
      rw [halign.length_eq] at hshort
      omega
    · obtain ⟨found, hfound, hscore⟩ := h.score_nonpos hp hopt (not_lt.1 hfloor) hsolve
      obtain rfl : sol = found := Option.some.inj hfound
      omega
  · rw [solve_of_greedy hfirst hlast (not_le.1 hcells)] at hsolve
    obtain ⟨found, hfound, hsome⟩ := map_eq_ok hsolve
    obtain rfl : found = sol := Option.some.inj hsome
    exact priceFrom_le (by omega) (price_of_greedy hfound).2

/-- Where nothing is worth less, what is solved is solved no worse, whether by
    the table or not, and nothing else is solved. -/
theorem solve_mono (h : p.Below p') (hp : p.Moderate) (hp' : p'.Moderate) (hquery : p.query ≠ [])
    {result result' : Option Solution} (hsolve : solve p = .ok result)
    (hsolve' : solve p' = .ok result') :
    Option.Rel (fun sol sol' => max sol.score 1 ≤ max sol'.score 1) result result' := by
  have hsome : result.isSome = true ↔ result'.isSome = true := by
    rw [solve_isSome_iff hsolve, solve_isSome_iff hsolve']
    exact exists_congr fun path => h.isAlignment_iff
  cases result with
  | none =>
    obtain rfl : result' = none := by simpa using hsome
    exact .none
  | some sol =>
    obtain ⟨sol', rfl⟩ := Option.isSome_iff_exists.1 (hsome.1 rfl)
    obtain ⟨first, last, hfirst, hlast⟩ := exists_embeds_iff.1 ((solve_isSome_iff hsolve).1 rfl)
    have hfirst' : earliest p'.accepts p'.query p'.columns.toList = some first := by
      rw [h.query, ← earliest_congr h.accepting, hfirst]
    have hlast' : latest p'.accepts p'.query p'.columns.toList = some last := by
      rw [h.query, ← latest_congr h.accepting, hlast]
    by_cases hcells : p.query.length * width first last ≤ maxCells
    · have hscan : Scanned p first last := ⟨hquery, hfirst, hlast, hcells⟩
      have hscan' : Scanned p' first last := ⟨h.query ▸ hquery, hfirst', hlast', h.query ▸ hcells⟩
      obtain ⟨_, heq, hle⟩ :=
        hscan.exists_solution_of_within hscan' hp hp' h.within hsolve hsolve'
      obtain rfl := Option.some.inj heq
      exact .some hle
    · rw [solve_of_greedy hfirst hlast (not_le.1 hcells)] at hsolve
      rw [solve_of_greedy hfirst' hlast' (h.query ▸ not_le.1 hcells)] at hsolve'
      obtain ⟨_, hfound, heq⟩ := map_eq_ok hsolve
      obtain ⟨_, hfound', heq'⟩ := map_eq_ok hsolve'
      obtain rfl := Option.some.inj heq
      obtain rfl := Option.some.inj heq'
      obtain ⟨hpath, hprice⟩ := price_of_greedy hfound
      obtain ⟨hpath', hprice'⟩ := price_of_greedy hfound'
      rw [hpath', ← h.greedyPath_eq, ← hpath, price, h.query] at hprice'
      have hle := h.priceFrom_mono le_rfl hprice hprice'
      exact .some (by omega)

end Alignment

end FuzzyPath
