/-
  FuzzyPath — the charge for separators, where there are none.

  A gap costs more for the separators in it.  If no column is a separator, it
  does not matter how much.

  * `Problem.charging` is a problem with another charge;
  * `sweep_charging` and `rowsBelow_charging`: the rows of the table are filled in
    the same way; `priceFrom_charging`: so is a path priced;
  * `solve_charging`: a query is aligned in the same way.
-/
import FuzzyPath.Alignment.Solve

namespace FuzzyPath.Alignment

/-- The problem with another charge for separators in gaps. -/
def Problem.charging (p : Problem) (charge : Int) : Problem :=
  { p with prices := { p.prices with componentGap := charge } }

variable (p : Problem) (charge : Int)

/-! ## The table -/

theorem Gap.skip_charging (gap : Gap) (before : Int) (k : Nat) {c : Column}
    (hc : c.isSeparator = false) :
    gap.skip (p.charging charge).prices before k c = gap.skip p.prices before k c := by
  simp only [Gap.skip, hc, Bool.false_eq_true, false_and, if_false]
  rfl

theorem firstRow_charging (q : TextUnit) (last : Nat) : ∀ (columns : List Column) (j : Nat)
    (done : List Cell),
    firstRow (p.charging charge) q last j done columns = firstRow p q last j done columns
  | [], _, _ => rfl
  | c :: columns, j, done => by
    have haccepts : (p.charging charge).accepts q c = p.accepts q c := rfl
    have hprice : (p.charging charge).matchPrice q c = p.matchPrice q c := rfl
    simp only [firstRow, haccepts, hprice, firstRow_charging q last columns]

theorem sweep_charging (q : TextUnit) (first last : Nat) : ∀ {columns : List Column}
    (_ : ∀ c ∈ columns, c.isSeparator = false) (row : List Cell) (gap : Gap) (before : Int)
    (j : Nat) (done : List Cell),
    sweep (p.charging charge) q first last gap before j done columns row =
      sweep p q first last gap before j done columns row
  | [], _, _, _, _, _, _ => by simp only [sweep]
  | _ :: _, _, [], _, _, _, _ => by simp only [sweep]
  | c :: columns, h, above :: row, gap, before, j, done => by
    obtain ⟨hc, hcolumns⟩ := List.forall_mem_cons.1 h
    have haccepts : (p.charging charge).accepts q c = p.accepts q c := rfl
    have hcell : cellAt (p.charging charge) q gap before j c = cellAt p q gap before j c := rfl
    simp only [sweep, haccepts, hcell, Gap.skip_charging p charge gap before (j - 1) hc,
      sweep_charging q first last hcolumns row]

theorem rowsBelow_charging (origin : Nat) {columns : List Column}
    (h : ∀ c ∈ columns, c.isSeparator = false) :
    ∀ (units : List (TextUnit × Nat × Nat)) (row : List Cell) (above : List (List Cell)),
      rowsBelow (p.charging charge) origin columns row above units =
        rowsBelow p origin columns row above units
  | [], _, _ => rfl
  | (q, first, last) :: units, row, above => by
    simp only [rowsBelow, sweep_charging p charge q first last h, rowsBelow_charging origin h units]

section
variable {p} (h : ∀ c ∈ p.columns, c.isSeparator = false)
include h

theorem not_isSeparator_of_mem_extract {start stop : Nat} :
    ∀ c ∈ (p.columns.extract start stop).toList, c.isSeparator = false := by
  intro c hc
  rw [Array.toList_extract, List.extract_eq_take_drop] at hc
  exact h c (Array.mem_toList_iff.1 (List.mem_of_mem_drop (List.mem_of_mem_take hc)))

theorem best_charging (first last : List Nat) :
    best (p.charging charge) first last = best p first last := by
  have hquery : (p.charging charge).query = p.query := rfl
  have hcolumns : (p.charging charge).columns = p.columns := rfl
  simp only [best, hquery, hcolumns, firstRow_charging]
  simp only [rowsBelow_charging p charge _ (not_isSeparator_of_mem_extract h)]

/-! ## Paths -/

theorem stepPrice_charging (total : Int) (i j : Nat) :
    stepPrice (p.charging charge) total i j = stepPrice p total i j := by
  have hnone : (p.columns.extract (i + 1) j).any (·.isSeparator) = false := by
    rw [← Array.any_toList, List.any_eq_false]
    exact fun c hc => by simp [not_isSeparator_of_mem_extract h c hc]
  have hcolumns : (p.charging charge).columns = p.columns := rfl
  simp only [stepPrice, hcolumns, hnone, Bool.false_eq_true, if_false]
  rfl

theorem priceFrom_charging : ∀ (query : List TextUnit) (path : List Nat) (total : Int)
    (prev : Option Nat),
    priceFrom (p.charging charge) total prev query path = priceFrom p total prev query path
  | [], _, _, _ => by simp only [priceFrom]
  | _ :: _, [], _, _ => by simp only [priceFrom]
  | q :: query, j :: path, total, prev => by
    have hcolumns : (p.charging charge).columns = p.columns := rfl
    have hprice (c : Column) : (p.charging charge).matchPrice q c = p.matchPrice q c := rfl
    simp only [priceFrom, hcolumns, hprice, stepPrice_charging charge h,
      priceFrom_charging query path]

/-! ## Solutions -/

/-- Where no column is a separator, the charge for separators has no part in how a
    query is aligned. -/
theorem solve_charging : solve (p.charging charge) = solve p := by
  have hgreedy (first : List Nat) : greedy (p.charging charge) first = greedy p first := by
    have hpath : greedyPath (p.charging charge) first = greedyPath p first := rfl
    have hprice (path : List Nat) : price (p.charging charge) path = price p path :=
      priceFrom_charging charge h p.query path 0 none
    rw [greedy, greedy, hpath, hprice]
  have haccepts : (p.charging charge).accepts = p.accepts := rfl
  have hquery : (p.charging charge).query = p.query := rfl
  have hcolumns : (p.charging charge).columns = p.columns := rfl
  simp only [solve, haccepts, hquery, hcolumns, hgreedy, best_charging charge h]

end

end FuzzyPath.Alignment
