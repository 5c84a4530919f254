/-
  FuzzyPath — gaps that cross several separators.

  The table charges a gap for every separator that it skips, while the price of
  a given path charges it once.

  * `Problem.extraCrossings` are the separators that the gaps of a path skip
    beyond the first one of each;
  * `Scanned.price_eq`: by so many charges the price of an alignment is above
    its worth;
  * `price_eq_score_iff`: for the path that the table reports, price and score
    agree exactly if no gap in it skips two separators; on `a/x/b` they do not
    (`price_ne_score_slashes`).
-/
import FuzzyPath.Proofs.Scoring.BestAlignment

namespace FuzzyPath

namespace Alignment
variable {p : Problem}

namespace Problem

/-- The number of separators that the gaps of a path skip, less one for each
    gap that skips any. -/
def extraCrossings (p : Problem) : List Nat → Nat
  | i :: j :: path => (p.separators i j - 1) + extraCrossings p (j :: path)
  | _ => 0

theorem extraCrossings_eq_zero_iff : ∀ {path : List Nat}, p.extraCrossings path = 0 ↔
    ∀ front i j rest, path = front ++ i :: j :: rest → p.separators i j ≤ 1
  | [] => by simp [extraCrossings]
  | [k] => by
    simp only [extraCrossings, true_iff]
    intro front i j rest hpath
    have hlen := congrArg List.length hpath
    simp at hlen
    omega
  | k :: l :: path => by
    rw [extraCrossings, Nat.add_eq_zero_iff, @extraCrossings_eq_zero_iff (l :: path)]
    constructor
    · rintro ⟨hfirst, hrest⟩ front i j rest hpath
      cases front with
      | nil =>
        obtain ⟨rfl, htail⟩ := List.cons.inj hpath
        obtain ⟨rfl, -⟩ := List.cons.inj htail
        omega
      | cons _ front => exact hrest front i j rest (List.cons.inj hpath).2
    · intro h
      have hfirst := h [] k l path rfl
      exact ⟨by omega, fun front i j rest hpath => h (k :: front) i j rest (by rw [hpath]; rfl)⟩

/-- Whether a gap crosses a separator at all. -/
theorem crosses_iff {i j : Nat} :
    (p.columns.extract (i + 1) j).any (·.isSeparator) = true ↔ 0 < p.separators i j := by
  rw [separators, List.countP_pos_iff, ← Array.any_toList, Array.toList_extract,
    List.extract_eq_take_drop, List.any_eq_true]

/-- A gap that is charged for one separator is spared the charge for all
    others. -/
theorem crossing_add (i j : Nat) :
    (if (p.columns.extract (i + 1) j).any (·.isSeparator) then p.prices.componentGap else 0) +
      (p.separators i j - 1 : Nat) * p.prices.componentGap =
        p.separators i j * p.prices.componentGap := by
  rcases Nat.eq_zero_or_pos (p.separators i j) with hnone | hsome
  · rw [if_neg (by rw [crosses_iff]; omega), hnone]
    simp
  · rw [if_pos (crosses_iff.2 hsome)]
    obtain ⟨n, hn⟩ := Nat.exists_eq_succ_of_ne_zero hsome.ne'
    rw [hn, Nat.succ_sub_one]
    push_cast
    ring

namespace Moderate
variable (hp : p.Moderate)
include hp

/-- A step adds no more than a run does, even if it is charged for one separator
    only. -/
theorem stepOnce_le (i j : Nat) :
    p.step i j + (p.separators i j - 1 : Nat) * p.prices.componentGap ≤ 4096 := by
  rw [step]
  split
  · rename_i hij
    have hrun := hp.consecutive.2
    simpa [hij, separators_self, Weights.maxCharWeight] using hrun
  · have hopen := hp.gapOpen.1
    have hextend := mul_nonneg (Int.natCast_nonneg (j - i - 2)) hp.gapExtend.1
    have hmany := mul_le_mul_of_nonneg_right
      (show ((p.separators i j - 1 : Nat) : Int) ≤ p.separators i j by omega) hp.componentGap.1
    omega

/-- What a step adds to the price of a path, if no sum leaves the 32-bit
    range. -/
theorem stepPrice_eq {total : Int} {i j : Nat} (hij : i < j) (hspan : j ≤ i + 2147483648)
    (hstep : -2147483647 ≤ p.step i j) (hlow : -2147483648 ≤ total + p.step i j)
    (hhigh : total + 4096 ≤ 2147483647) :
    stepPrice p total i j =
      total + (p.step i j + (p.separators i j - 1 : Nat) * p.prices.componentGap) := by
  by_cases hnext : j = i + 1
  · subst hnext
    have hrun := hp.consecutive.2
    rw [Weights.maxCharWeight] at hrun
    rw [step_succ] at hlow ⊢
    rw [stepPrice, if_pos (by omega), separators_self, saturate32_of_mem hlow (by omega)]
    simp
  · have hopen := hp.gapOpen.1
    have hextend := mul_nonneg (Int.natCast_nonneg (j - i - 2)) hp.gapExtend.1
    have hextra := mul_nonneg (Int.natCast_nonneg (p.separators i j - 1)) hp.componentGap.1
    have hpaid := crossing_add (p := p) i j
    have hfee : 0 ≤ if (p.columns.extract (i + 1) j).any (·.isSeparator) then
        p.prices.componentGap else 0 := by
      have := hp.componentGap.1
      split <;> omega
    rw [step, if_neg hnext] at hstep hlow ⊢
    simp only [stepPrice, if_neg (show ¬ j - i - 1 = 0 by omega)]
    generalize (if (p.columns.extract (i + 1) j).any (·.isSeparator) then
      p.prices.componentGap else 0) = fee at hpaid hfee ⊢
    have hextent : (min (j - i - 1 - 1 : Nat) 2147483647 : Int) = (j - i - 2 : Nat) := by omega
    rw [hextent, saturate32_of_mem (x := total - p.prices.gapOpen) (by omega) (by omega),
      saturate32_of_mem (x := (j - i - 2 : Nat) * p.prices.gapExtend) (by omega) (by omega),
      saturate32_of_mem (x := total - p.prices.gapOpen - _) (by omega) (by omega),
      saturate32_of_mem (by omega) (by omega)]
    omega

variable (hopen : p.prices.gapOpen ≤ 511)
  (hpass : p.prices.gapExtend + p.prices.componentGap ≤ 511)
include hopen hpass

/-- The price of the rest of a path that lies between the columns `base` and
    `top`.  What is summed up to the column `i` is no less than a loss of 511
    for each column passed, and leaves room for the units to come. -/
theorem priceFrom_eq {base top : Nat} (hspan : top ≤ base + 1048576) :
    ∀ {query : List TextUnit} {path : List Nat} {total : Int} {i : Nat},
      List.Forall₂ (fun q j => ∃ c, p.columns.toList[j]? = some c ∧ p.accepts q c = true)
        query path →
      (i :: path).Pairwise (· < ·) → base ≤ i → (∀ j ∈ i :: path, j ≤ top) →
      -(511 * ((i : Int) - base)) ≤ total → total + 20480 * path.length ≤ 1073741824 →
      priceFrom p total (some i) query path =
        .ok (total + (List.zipWith p.gainAt query path).sum + p.steps (i :: path) +
          p.extraCrossings (i :: path) * p.prices.componentGap) := by
  intro query path total i hmatch
  induction hmatch generalizing total i with
  | nil =>
    intros
    simp [priceFrom, steps, extraCrossings]
  | @cons q j query path hq hrest ih =>
    intro hinc hbase htop hlow hhigh
    obtain ⟨c, hc, -⟩ := hq
    obtain ⟨hlt, hinc'⟩ := List.pairwise_cons.1 hinc
    have hij := hlt j (List.mem_cons_self ..)
    have hjtop := htop j (by simp)
    have hmem := List.mem_of_getElem? hc
    have hprice := matchPrice_eq hp q hmem
    have hgain := hp.gain_nonneg q hmem
    have hgain' := hp.gain_le q hmem
    rw [Array.getElem?_toList] at hc
    rw [List.length_cons] at hhigh
    push_cast at hhigh
    have hstep := neg_le_step hp.consecutive.1 hopen hp.gapExtend.1 hp.componentGap.1 hpass hij
    have hstep' := hp.stepOnce_le i j
    have hextra := mul_nonneg (Int.natCast_nonneg (p.separators i j - 1)) hp.componentGap.1
    have hsum : saturate32 (total + p.gain q c) = total + p.gain q c :=
      saturate32_of_mem (by omega) (by omega)
    simp only [priceFrom, hc, hprice, hsum]
    rw [hp.stepPrice_eq hij (by omega) (by omega) (by omega) (by omega),
      ih hinc' (by omega) (fun k hk => htop k (List.mem_cons_of_mem _ hk)) (by omega) (by omega)]
    rw [List.zipWith_cons_cons, List.sum_cons, steps, extraCrossings, gainAt_of_getElem? hc]
    push_cast
    ring_nf

end Moderate

end Problem

/-- Where the table is used and gaps are cheap, the price of an alignment is its
    worth without the extra charges. -/
theorem Scanned.price_eq {first last : List Nat} (h : Scanned p first last) (hp : p.Moderate)
    (hopen : p.prices.gapOpen ≤ 511) (hpass : p.prices.gapExtend + p.prices.componentGap ≤ 511)
    {path : List Nat} (hpath : p.IsAlignment path) :
    price p path =
      .ok (p.worth p.query path + p.extraCrossings path * p.prices.componentGap) := by
  have hshort : path.length ≤ 1024 := hpath.length_eq ▸ h.length_le
  have hwide := h.width_le
  have hlow := h.first_le hpath
  have hhigh := forall₂_getLastD (le_refl 0) (h.le_last hpath)
  have hinc := hpath.increasing
  obtain ⟨q, query, hquery⟩ := List.exists_cons_of_ne_nil h.nonempty
  have hmatch := hpath.matching
  rw [hquery] at hmatch
  obtain ⟨j, path, ⟨c, hc, -⟩, hrest, rfl⟩ := List.forall₂_cons_left_iff.1 hmatch
  have hfirst : first.headD 0 ≤ j := by
    obtain ⟨a, first, ha, -, rfl⟩ := List.forall₂_cons_right_iff.1 hlow
    exact ha
  have hmem := List.mem_of_getElem? hc
  have hgain := hp.gain_nonneg q hmem
  have hgain' := hp.gain_le q hmem
  rw [Array.getElem?_toList] at hc
  rw [List.getLastD_cons] at hhigh
  rw [List.length_cons] at hshort
  rw [width] at hwide
  have hsum : saturate32 (0 + p.gain q c) = p.gain q c := by
    rw [zero_add]
    exact saturate32_of_mem (by omega) (by omega)
  simp only [price, hquery, priceFrom, hc, matchPrice_eq hp q hmem, hsum]
  rw [hp.priceFrom_eq hopen hpass (show last.getLastD 0 ≤ j + 1048576 by omega) hrest hinc le_rfl
    (fun k hk => (le_getLastD hinc k hk).trans hhigh) (by omega) (by omega)]
  rw [Problem.worth, List.zipWith_cons_cons, List.sum_cons, Problem.gainAt_of_getElem? hc]

end Alignment

namespace Scorer

open FuzzyPath.Alignment in
/-- With the standard weights, the price of the path that the table reports is
    above its score by the charge for each extra crossing.  The two agree exactly
    if no gap in the path skips more than one separator.  32 bits have to hold every
    column, or another path may be reported. -/
theorem price_eq_score_iff {s : Scorer} (hweights : s.weights = .standard)
    (hquery : s.query.units ≠ []) (c : Candidate) (window : Span) :
    ∃ columns, s.columnsOf c window = .ok columns ∧
      ∀ first last, earliest (s.problem columns).accepts s.query.units columns = some first →
        latest (s.problem columns).accepts s.query.units columns = some last →
        s.query.units.length * width first last ≤ maxCells → columns.length < 2 ^ 32 →
          ∃ sol, solve (s.problem columns) = .ok (some sol) ∧
            price (s.problem columns) sol.path =
              .ok (sol.score + 4 * (s.problem columns).extraCrossings sol.path) ∧
            (price (s.problem columns) sol.path = .ok sol.score ↔
              ∀ front i j rest, sol.path = front ++ i :: j :: rest →
                (s.problem columns).separators i j ≤ 1) := by
  have hvalid : s.weights.validate = .ok () := hweights ▸ Weights.validate_standard
  obtain ⟨columns, hcolumns, hp⟩ := columnsOf_valid hvalid c window
  obtain ⟨hopen, hpass⟩ := gap_le_of_standard hweights columns
  have hcharge : (s.problem columns).prices.componentGap = 4 := by
    rw [problem, hweights]
    rfl
  refine ⟨columns, hcolumns, fun first last hfirst hlast hcells hsize => ?_⟩
  have hscan : Scanned (s.problem columns) first last := ⟨hquery, hfirst, hlast, hcells⟩
  obtain ⟨opt, hopt⟩ := exists_isGreatest_worth hp ⟨_, hscan.embeds_first⟩
  have hfloor : -(2 : Int) ^ 29 < opt := by
    obtain ⟨path, halign, rfl⟩ := hopt.1
    exact hscan.floor_lt_worth hp hopen hpass halign
  obtain ⟨path, halign, hworth, hsolve⟩ := hscan.solve_of_floor_lt hp hopt hfloor
  rw [readBack_of_isAlignment halign hsize] at hsolve
  have hprice : price (s.problem columns) path =
      .ok (opt + 4 * (s.problem columns).extraCrossings path) := by
    rw [hscan.price_eq hp hopen hpass halign, hcharge, mul_comm]
    exact congrArg (fun v => Except.ok (v + _)) hworth
  refine ⟨⟨opt, path⟩, hsolve, hprice, ?_⟩
  dsimp only
  rw [hprice, ← Problem.extraCrossings_eq_zero_iff, Except.ok.injEq]
  omega

/-- A scorer of the query `ab` on paths, with the standard weights. -/
def pathScorerOfAb : Scorer :=
  .new { queryAb with keyKind := .path } .standard ⟨none, false, .unix⟩

/-- The columns of the line `a/xb`. -/
def columnsOfSlash : List Alignment.Column :=
  [⟨⟨'a', 'a', 0, 1⟩, 16, false⟩, ⟨⟨'/', '/', 1, 1⟩, 0, true⟩, ⟨⟨'x', 'x', 2, 1⟩, 26, false⟩,
    ⟨⟨'b', 'b', 3, 1⟩, 10, false⟩]

open FuzzyPath.Alignment in
theorem price_eq_score_slash :
    pathScorerOfAb.weights = .standard ∧ pathScorerOfAb.query.units ≠ [] ∧
      pathScorerOfAb.columnsOf (.ofLine 0 "a/xb" .fullLine .unix) ⟨0, 4⟩ = .ok columnsOfSlash ∧
      ∃ sol, solve (pathScorerOfAb.problem columnsOfSlash) = .ok (some sol) ∧
        price (pathScorerOfAb.problem columnsOfSlash) sol.path = .ok sol.score := by
  have hquery : pathScorerOfAb.query.units ≠ [] := by decide
  have hline : pathScorerOfAb.columnsOf (.ofLine 0 "a/xb" .fullLine .unix) ⟨0, 4⟩ =
      .ok columnsOfSlash := by decide
  have hearliest : earliest (pathScorerOfAb.problem columnsOfSlash).accepts
      pathScorerOfAb.query.units columnsOfSlash = some [0, 3] := by decide
  have hlatest : latest (pathScorerOfAb.problem columnsOfSlash).accepts
      pathScorerOfAb.query.units columnsOfSlash = some [0, 3] := by decide
  have hsolved : solve (pathScorerOfAb.problem columnsOfSlash) = .ok (some ⟨51, [0, 3]⟩) := by
    decide
  obtain ⟨columns, hcolumns, hagree⟩ :=
    price_eq_score_iff (s := pathScorerOfAb) rfl hquery (.ofLine 0 "a/xb" .fullLine .unix) ⟨0, 4⟩
  obtain rfl : columnsOfSlash = columns := Except.ok.inj (hline.symm.trans hcolumns)
  obtain ⟨sol, hsol, hprice, -⟩ := hagree _ _ hearliest hlatest (by decide) (by decide)
  obtain rfl : ⟨51, [0, 3]⟩ = sol := Option.some.inj (Except.ok.inj (hsolved.symm.trans hsol))
  exact ⟨rfl, hquery, hline, _, hsol, hprice⟩

/-- The columns of the line `a/x/b`. -/
def columnsOfSlashes : List Alignment.Column :=
  [⟨⟨'a', 'a', 0, 1⟩, 16, false⟩, ⟨⟨'/', '/', 1, 1⟩, 0, true⟩, ⟨⟨'x', 'x', 2, 1⟩, 16, false⟩,
    ⟨⟨'/', '/', 3, 1⟩, 0, true⟩, ⟨⟨'b', 'b', 4, 1⟩, 26, false⟩]

open FuzzyPath.Alignment in
/-- The one gap of `a/x/b` skips two separators: the table charges both, and the
    price of the path that it reports one. -/
theorem price_ne_score_slashes :
    pathScorerOfAb.weights = .standard ∧
      pathScorerOfAb.columnsOf (.ofLine 0 "a/x/b" .fullLine .unix) ⟨0, 5⟩ = .ok columnsOfSlashes ∧
      earliest (pathScorerOfAb.problem columnsOfSlashes).accepts pathScorerOfAb.query.units
        columnsOfSlashes = some [0, 4] ∧
      latest (pathScorerOfAb.problem columnsOfSlashes).accepts pathScorerOfAb.query.units
        columnsOfSlashes = some [0, 4] ∧
      pathScorerOfAb.query.units.length * width [0, 4] [0, 4] ≤ maxCells ∧
      solve (pathScorerOfAb.problem columnsOfSlashes) = .ok (some ⟨62, [0, 4]⟩) ∧
      price (pathScorerOfAb.problem columnsOfSlashes) [0, 4] = .ok 66 := by
  decide +kernel

end Scorer

end FuzzyPath
