/-
  FuzzyPath — the exact worth of an alignment.

  * `Problem.IsAlignment` are the alignments of a problem, and `worth` their
    worth, summed in unbounded integers: what each match earns (`gain`) and
    what each step from a match to the next one adds (`step`);
  * `worth_append` cuts an alignment in two at any step;
  * `Moderate` prices are within the bounds for weights; then a match earns
    something (`gain_nonneg`), and no alignment is worth more than
    20480 a unit (`worth_le`);
  * `Endures` says that the running worth of an alignment never falls to the
    score that stands for no alignment.  By `endures_of_floor_lt` that can
    only happen to alignments that are worth very little.
-/
import FuzzyPath.Alignment.Table
import FuzzyPath.Proofs.Alignment.Embedding
import Mathlib.Algebra.BigOperators.Group.List.Basic
import Mathlib.Tactic.Linarith
import Mathlib.Tactic.Ring

namespace FuzzyPath.Alignment.Problem

/-! ## Worth -/

section
variable (p : Problem)

/-- The query of the problem is put on the columns of `path`. -/
def IsAlignment (path : List Nat) : Prop := Embeds p.accepts p.columns.toList p.query path

/-- What putting `q` on the column `c` earns. -/
def gain (q : TextUnit) (c : Column) : Int :=
  p.prices.matchBase + c.bonus + if q.ch == c.unit.ch then p.prices.exactCase else 0

/-- What putting `q` on the column with number `j` earns. -/
def gainAt (q : TextUnit) (j : Nat) : Int := (p.columns[j]?.map (p.gain q)).getD 0

/-- The number of separators that a step from `i` to `j` skips. -/
def separators (i j : Nat) : Nat :=
  ((p.columns.toList.drop (i + 1)).take (j - (i + 1))).countP (·.isSeparator)

/-- What the step from a match on `i` to the next match on `j` adds: the bonus
    for consecutive matches, or else the price of the gap of `j - i - 1`
    columns, with the price of every separator in it. -/
def step (i j : Nat) : Int :=
  if j = i + 1 then p.prices.consecutive
  else -(p.prices.gapOpen + (j - i - 2 : Nat) * p.prices.gapExtend +
    p.separators i j * p.prices.componentGap)

/-- What all steps of a path add. -/
def steps : List Nat → Int
  | i :: j :: path => p.step i j + steps (j :: path)
  | _ => 0

/-- The worth of putting `query` on the columns of `path`. -/
def worth (query : List TextUnit) (path : List Nat) : Int :=
  (List.zipWith p.gainAt query path).sum + p.steps path

/-- Before every match but the first, the running worth is above the score that
    stands for no alignment. -/
def Endures (query : List TextUnit) (path : List Nat) : Prop :=
  ∀ before k j after, path = before ++ k :: j :: after →
    unreached < p.worth (query.take (before.length + 1)) (before ++ [k]) + p.step k j

/-- Prices and bonuses within the bounds for weights. -/
structure Moderate : Prop where
  matchBase : 0 ≤ p.prices.matchBase ∧ p.prices.matchBase ≤ Weights.maxCharWeight
  exactCase : 0 ≤ p.prices.exactCase ∧ p.prices.exactCase ≤ Weights.maxCharWeight
  consecutive : 0 ≤ p.prices.consecutive ∧ p.prices.consecutive ≤ Weights.maxCharWeight
  gapOpen : 0 ≤ p.prices.gapOpen ∧ p.prices.gapOpen ≤ Weights.maxCharWeight
  gapExtend : 0 ≤ p.prices.gapExtend ∧ p.prices.gapExtend ≤ Weights.maxCharWeight
  componentGap : 0 ≤ p.prices.componentGap ∧ p.prices.componentGap ≤ Weights.maxCharWeight
  /-- A bonus is that of a boundary, with that of the file name added. -/
  bonus : ∀ c ∈ p.columns.toList, 0 ≤ c.bonus ∧ c.bonus ≤ 2 * Weights.maxCharWeight

end

variable {p : Problem}

theorem gainAt_of_getElem? {q : TextUnit} {j : Nat} {c : Column} (h : p.columns[j]? = some c) :
    p.gainAt q j = p.gain q c := by
  simp [gainAt, h]

/-! ## Steps -/

theorem step_succ (j : Nat) : p.step j (j + 1) = p.prices.consecutive := by simp [step]

theorem separators_self (j : Nat) : p.separators j (j + 1) = 0 := by simp [separators]

theorem separators_succ {i j : Nat} {c : Column} (h : p.columns[j]? = some c) (hij : i < j) :
    p.separators i (j + 1) = p.separators i j + if c.isSeparator then 1 else 0 := by
  have hdrop : (p.columns.toList.drop (i + 1))[j - (i + 1)]? = some c := by
    rw [List.getElem?_drop, Array.getElem?_toList, ← h]
    congr 1; omega
  obtain ⟨hlt, hc⟩ := List.getElem?_eq_some_iff.1 hdrop
  rw [separators, separators, show j + 1 - (i + 1) = j - (i + 1) + 1 by omega,
    List.take_succ_eq_append_getElem hlt, hc, List.countP_append, List.countP_singleton]

theorem separators_le (i j : Nat) : p.separators i j ≤ j - (i + 1) :=
  (List.countP_le_length).trans (List.length_take_le _ _)

/-- A gap that is entered skips the column after the match. -/
theorem step_open {k : Nat} {c : Column} (h : p.columns[k + 1]? = some c) :
    p.step k (k + 2) = -p.prices.gapOpen - if c.isSeparator then p.prices.componentGap else 0 := by
  have hsep := separators_succ h (Nat.lt_succ_self k)
  rw [separators_self, Nat.zero_add] at hsep
  rw [step, if_neg (by omega), show k + 2 = k + 1 + 1 from rfl, hsep,
    show k + 1 + 1 - k - 2 = 0 by omega]
  split
  · simp; ring
  · simp

/-- A gap that is made longer skips one column more. -/
theorem step_skip {k j : Nat} {c : Column} (h : p.columns[j]? = some c) (hkj : k + 1 < j) :
    p.step k (j + 1) =
      p.step k j - p.prices.gapExtend - if c.isSeparator then p.prices.componentGap else 0 := by
  rw [step, step, if_neg (by omega), if_neg (by omega), separators_succ h (by omega),
    show j + 1 - k - 2 = j - k - 2 + 1 by omega]
  split <;> push_cast <;> ring

/-! ## Cutting a path -/

@[simp] theorem worth_singleton (q : TextUnit) (j : Nat) : p.worth [q] [j] = p.gainAt q j := by
  simp [worth, steps]

theorem steps_append (before after : List Nat) (k j : Nat) :
    p.steps (before ++ k :: j :: after) =
      p.steps (before ++ [k]) + p.step k j + p.steps (j :: after) := by
  induction before with
  | nil => simp [steps]
  | cons i before ih =>
    cases before with
    | nil => simp [steps]; ring
    | cons i' before =>
      simp only [List.cons_append, steps] at ih ⊢
      rw [ih]; ring

theorem worth_append {front : List TextUnit} (back : List TextUnit) {before : List Nat}
    (k j : Nat) (after : List Nat) (h : front.length = before.length + 1) :
    p.worth (front ++ back) (before ++ k :: j :: after) =
      p.worth front (before ++ [k]) + p.step k j + p.worth back (j :: after) := by
  have hzip : List.zipWith p.gainAt (front ++ back) (before ++ k :: j :: after) =
      List.zipWith p.gainAt front (before ++ [k]) ++ List.zipWith p.gainAt back (j :: after) := by
    rw [← List.zipWith_append (by simpa using h)]
    simp
  rw [worth, worth, worth, hzip, List.sum_append, steps_append]
  ring

/-! ## Moderate prices -/

namespace Moderate
variable (hp : p.Moderate)
include hp

theorem gain_nonneg (q : TextUnit) {c : Column} (hc : c ∈ p.columns.toList) :
    0 ≤ p.gain q c := by
  have hbase := hp.matchBase
  have hcase := hp.exactCase
  have hbonus := hp.bonus c hc
  rw [gain]; split <;> omega

theorem gain_le (q : TextUnit) {c : Column} (hc : c ∈ p.columns.toList) :
    p.gain q c ≤ 16384 := by
  have hbase := hp.matchBase
  have hcase := hp.exactCase
  have hbonus := hp.bonus c hc
  simp only [Weights.maxCharWeight] at hbase hcase hbonus
  rw [gain]; split <;> omega

theorem gainAt_le (q : TextUnit) (j : Nat) : p.gainAt q j ≤ 16384 := by
  rw [gainAt]
  cases h : p.columns[j]? with
  | none => simp
  | some c =>
    rw [← Array.getElem?_toList] at h
    exact hp.gain_le q (List.mem_of_getElem? h)

theorem gainAt_nonneg (q : TextUnit) (j : Nat) : 0 ≤ p.gainAt q j := by
  rw [gainAt]
  cases h : p.columns[j]? with
  | none => simp
  | some c =>
    rw [← Array.getElem?_toList] at h
    exact hp.gain_nonneg q (List.mem_of_getElem? h)

theorem gains_nonneg : ∀ (query : List TextUnit) (path : List Nat),
    0 ≤ (List.zipWith p.gainAt query path).sum
  | [], _ => by simp
  | _ :: _, [] => by simp
  | q :: query, j :: path => by
    rw [List.zipWith_cons_cons, List.sum_cons]
    exact add_nonneg (hp.gainAt_nonneg q j) (gains_nonneg query path)

theorem step_le (i j : Nat) : p.step i j ≤ 4096 := by
  have hrun := hp.consecutive
  have hopen := hp.gapOpen
  have hextend := mul_nonneg (Int.natCast_nonneg (j - i - 2)) hp.gapExtend.1
  have hcross := mul_nonneg (Int.natCast_nonneg (p.separators i j)) hp.componentGap.1
  simp only [Weights.maxCharWeight] at hrun
  rw [step]; split <;> omega

theorem steps_le : ∀ path : List Nat, p.steps path ≤ 4096 * path.length
  | [] => by simp [steps]
  | [_] => by simp [steps]
  | i :: j :: path => by
    have hstep := hp.step_le i j
    have hrest := steps_le (j :: path)
    rw [steps]
    simp only [List.length_cons] at hrest ⊢
    push_cast at hrest ⊢
    linarith

theorem gains_le : ∀ (query : List TextUnit) (path : List Nat),
    (List.zipWith p.gainAt query path).sum ≤ 16384 * path.length
  | [], _ => by simp
  | _ :: _, [] => by simp
  | q :: query, j :: path => by
    have hgain := hp.gainAt_le q j
    have hrest := gains_le query path
    simp only [List.zipWith_cons_cons, List.sum_cons, List.length_cons]
    push_cast
    linarith

theorem worth_le (query : List TextUnit) (path : List Nat) :
    p.worth query path ≤ 20480 * path.length := by
  have hgains := hp.gains_le query path
  have hsteps := hp.steps_le path
  rw [worth]; linarith

/-- An alignment of at most 1024 units that is worth more than -2^29 endures: no
    running worth is less than the end by more than what the rest can add. -/
theorem endures_of_floor_lt {query : List TextUnit} {path : List Nat}
    (hlen : query.length = path.length) (hshort : path.length ≤ 1024)
    (hfloor : -536870912 < p.worth query path) : p.Endures query path := by
  rintro before k j after rfl
  have hlong : before.length + 1 ≤ query.length := by simp at hlen; omega
  have htake : (query.take (before.length + 1)).length = before.length + 1 := by
    rw [List.length_take]; omega
  have hcut := worth_append (p := p) (query.drop (before.length + 1)) k j after htake
  rw [List.take_append_drop] at hcut
  have hrest := hp.worth_le (query.drop (before.length + 1)) (j :: after)
  have hafter : (((j :: after).length : Nat) : Int) ≤ 1024 := by
    simp only [List.length_append, List.length_cons] at hshort ⊢; omega
  simp only [unreached]
  omega

end Moderate

/-- Where a gap costs at most `rate` for each column that it passes, with the
    separator on it, and opening it costs no more, a step costs at most `rate`
    for each column that it advances. -/
theorem neg_le_step {rate : Int} (hrun : 0 ≤ p.prices.consecutive)
    (hopen : p.prices.gapOpen ≤ rate) (hextend : 0 ≤ p.prices.gapExtend)
    (hcross : 0 ≤ p.prices.componentGap)
    (hpass : p.prices.gapExtend + p.prices.componentGap ≤ rate) {i j : Nat} (hij : i < j) :
    -(rate * ((j : Int) - i)) ≤ p.step i j := by
  have hrate : 0 ≤ rate := by omega
  rw [step]
  split
  · have := mul_nonneg hrate (show (0 : Int) ≤ j - i by omega)
    omega
  · obtain ⟨d, rfl⟩ : ∃ d, j = i + 2 + d := ⟨j - i - 2, by omega⟩
    have hseps : (p.separators i (i + 2 + d) : Int) ≤ d + 1 := by
      have := separators_le (p := p) i (i + 2 + d)
      omega
    have hcrossed := mul_le_mul_of_nonneg_right hseps hcross
    have hpassed := mul_le_mul_of_nonneg_left hpass (show (0 : Int) ≤ d + 1 by omega)
    rw [show i + 2 + d - i - 2 = d by omega]
    push_cast
    linarith

/-- Such a path from `j` up to at most `top` loses at most `rate` a column. -/
theorem neg_le_steps {rate : Int} (hrun : 0 ≤ p.prices.consecutive)
    (hopen : p.prices.gapOpen ≤ rate) (hextend : 0 ≤ p.prices.gapExtend)
    (hcross : 0 ≤ p.prices.componentGap)
    (hpass : p.prices.gapExtend + p.prices.componentGap ≤ rate) {top : Nat} :
    ∀ (path : List Nat) (j : Nat), (j :: path).Pairwise (· < ·) → (∀ i ∈ j :: path, i ≤ top) →
      -(rate * ((top : Int) - j)) ≤ p.steps (j :: path)
  | [], j, _, htop => by
    have hj := htop j (List.mem_cons_self ..)
    have := mul_nonneg (show 0 ≤ rate by omega) (show (0 : Int) ≤ top - j by omega)
    simp only [steps]; omega
  | j :: path, i, h, htop => by
    obtain ⟨hlt, hinc⟩ := List.pairwise_cons.1 h
    have hstep := neg_le_step hrun hopen hextend hcross hpass (hlt j (List.mem_cons_self ..))
    have hrest := neg_le_steps hrun hopen hextend hcross hpass path j hinc
      fun k hk => htop k (List.mem_cons_of_mem _ hk)
    rw [steps]
    linarith

end FuzzyPath.Alignment.Problem
