/-
  FuzzyPath — the table in two arrays.

  The cells stand in the arrays in the order in which they are filled.

  * `Grid.laid` is the table whose first cells are given, no alignment ending on
    the others;
  * `score_laid` and `put_laid`: reading one of these cells, and writing the next
    one; a cell on which no alignment ends need not be written
    (`laid_append_empty`);
  * `fillFirst_of_firstRow`, `fillRow_of_sweep` and `fillRows_of_rowsBelow`: the
    rows are filled as if each were a list of its own;
  * `bestIn_eq_bestEnd` and `traceIn_of_trace`: and so they are read.
-/
import FuzzyPath.Proofs.Alignment.Scanning
import FuzzyPath.Proofs.Alignment.Filling
import FuzzyPath.Proofs.Fallible

namespace FuzzyPath.Alignment

/-- Writing the element after those that stand in front of the filling. -/
theorem store_filling {α : Type} {front : List α} {n i : Nat} (hi : front.length = i)
    (hroom : front.length < n) (filling x : α) :
    store (front ++ .replicate (n - front.length) filling).toArray i x =
      .ok ((front ++ [x]) ++ .replicate (n - (front ++ [x]).length) filling).toArray := by
  have hcount : n - front.length = n - (front ++ [x]).length + 1 := by
    rw [List.length_append, List.length_singleton]
    omega
  rw [hcount, List.replicate_succ, store_toArray hi, List.append_assoc, List.singleton_append]

/-- A cell of a row stands after the rows above it. -/
theorem getElem?_row {rows row : List Cell} {i wide t : Nat} {cell : Cell}
    (hrows : rows.length = i * wide) (h : row[t]? = some cell) (rest : List Cell) :
    (rows ++ (row ++ rest))[i * wide + t]? = some cell := by
  rw [← hrows, List.getElem?_append_right (Nat.le_add_right ..), Nat.add_sub_cancel_left,
    List.getElem?_append_left (List.getElem?_eq_some_iff.1 h).1, h]

theorem flatten_reverse_cons (row : List Cell) (above : List (List Cell)) :
    (row :: above).reverse.flatten = above.reverse.flatten ++ row := by
  rw [List.reverse_cons, List.flatten_append, List.flatten_singleton]

namespace Grid
variable {height wide origin : Nat} {cells : List Cell}

/-- The table with some cells at its start, and no alignment ending on the rest. -/
def laid (height wide origin : Nat) (cells : List Cell) : Grid where
  wide := wide
  origin := origin
  table := (cells.map Cell.score ++ .replicate (height * wide - cells.length) unreached).toArray
  back := (cells.map Cell.back ++ .replicate (height * wide - cells.length) noColumn).toArray

theorem blank_eq_laid (height wide origin : Nat) :
    blank height wide origin = laid height wide origin [] := by
  simp [blank, laid]

/-- Cells on which no alignment ends are there from the beginning. -/
theorem laid_append_empty {n : Nat} (h : cells.length + n ≤ height * wide) :
    laid height wide origin (cells ++ .replicate n Cell.empty) = laid height wide origin cells := by
  have hcount : height * wide - cells.length =
      n + (height * wide - (cells ++ List.replicate n Cell.empty).length) := by
    rw [List.length_append, List.length_replicate]
    omega
  rw [laid, laid, hcount, List.replicate_add, List.replicate_add, List.map_append, List.map_append,
    List.map_replicate, List.map_replicate, List.append_assoc, List.append_assoc]
  rfl

variable {i j : Nat} {cell : Cell}

theorem place_laid (hj : origin ≤ j) :
    (laid height wide origin cells).place i j = .ok (i * wide + (j - origin)) :=
  if_neg (Nat.not_lt.2 hj)

theorem score_laid (hj : origin ≤ j) (h : cells[i * wide + (j - origin)]? = some cell) :
    (laid height wide origin cells).score i j = .ok cell.score := by
  rw [score, place_laid hj]
  refine fetch_toArray ?_
  rw [List.getElem?_append_left, List.getElem?_map, h]
  · rfl
  · rw [List.length_map]
    exact (List.getElem?_eq_some_iff.1 h).1

theorem previous_laid (hj : origin ≤ j) (h : cells[i * wide + (j - origin)]? = some cell) :
    (laid height wide origin cells).previous i j = .ok cell.back := by
  rw [previous, place_laid hj]
  refine fetch_toArray ?_
  rw [List.getElem?_append_left, List.getElem?_map, h]
  · rfl
  · rw [List.length_map]
    exact (List.getElem?_eq_some_iff.1 h).1

/-- A cell without a column before it leaves the columns as they are. -/
theorem back_laid_append (hroom : cells.length < height * wide) (hback : cell.back = noColumn) :
    (laid height wide origin (cells ++ [cell])).back = (laid height wide origin cells).back := by
  have hcount : height * wide - cells.length =
      height * wide - (cells ++ [cell]).length + 1 := by
    rw [List.length_append, List.length_singleton]
    omega
  simp only [laid]
  rw [hcount, List.replicate_succ, List.map_append, List.map_singleton, hback, List.append_assoc,
    List.singleton_append]

section
variable (hj : origin ≤ j) (hplace : cells.length = i * wide + (j - origin))
  (hroom : cells.length < height * wide)
include hj hplace hroom

theorem putScore_laid (cell : Cell) : (laid height wide origin cells).putScore i j cell.score =
    .ok { laid height wide origin (cells ++ [cell]) with
      back := (laid height wide origin cells).back } := by
  have hscores : (cells.map Cell.score).length = i * wide + (j - origin) := by
    rw [List.length_map, hplace]
  have htable := store_filling hscores (by rwa [List.length_map]) unreached cell.score
  rw [List.length_map] at htable
  rw [putScore, place_laid hj]
  simp only [laid, bind, Except.bind, pure, Except.pure, htable, List.map_append,
    List.map_singleton, List.length_append, List.length_map, List.length_singleton]

/-- The first query unit has none before it, and so its score is the whole cell. -/
theorem putScore_laid_start (price : Int) :
    (laid height wide origin cells).putScore i j price =
      .ok (laid height wide origin (cells ++ [⟨price, noColumn⟩])) := by
  have hbacks : (laid height wide origin (cells ++ [⟨price, noColumn⟩])).back =
      (laid height wide origin cells).back := back_laid_append hroom rfl
  rw [putScore_laid hj hplace hroom ⟨price, noColumn⟩, ← hbacks]

theorem put_laid (cell : Cell) : (laid height wide origin cells).put i j cell =
    .ok (laid height wide origin (cells ++ [cell])) := by
  have hbacks : (cells.map Cell.back).length = i * wide + (j - origin) := by
    rw [List.length_map, hplace]
  have hback := store_filling hbacks (by rwa [List.length_map]) noColumn cell.back
  rw [List.length_map] at hback
  rw [put, putScore_laid hj hplace hroom]
  simp only [laid, place, if_neg (Nat.not_lt.2 hj), bind, Except.bind, pure, Except.pure, hback, List.map_append,
    List.map_singleton, List.length_append, List.length_map, List.length_singleton]

end

end Grid

open Grid

variable {p : Problem} {q : TextUnit} {height wide origin last : Nat}

/-! ## Columns -/

namespace Window
variable {columns : List Column} {c : Column}

theorem head (h : Window p origin (c :: columns)) : p.columns[origin]? = some c := h 0 c rfl

theorem tail (h : Window p origin (c :: columns)) : Window p (origin + 1) columns :=
  fun t c' hc' => by
    rw [Nat.add_assoc, Nat.add_comm 1 t]
    exact h (t + 1) c' hc'

theorem drop (h : Window p origin columns) (n : Nat) :
    Window p (origin + n) (columns.drop n) := fun t c' hc' => by
  rw [List.getElem?_drop] at hc'
  rw [Nat.add_assoc]
  exact h (n + t) c' hc'

end Window

/-! ## The first row -/

theorem length_of_firstRow : ∀ {columns : List Column} {j : Nat} {done row : List Cell},
    firstRow p q last j done columns = .ok row → row.length = done.length + columns.length
  | [], j, done, row, h => by
    rw [firstRow] at h
    rw [← Except.ok.inj h, List.length_reverse]
    rfl
  | c :: columns, j, done, row, h => by
    rw [firstRow] at h
    split at h
    · cases h
    · rw [length_of_firstRow h, List.length_cons, List.length_cons, Nat.add_assoc, Nat.add_comm 1]

theorem firstRow_of_lt : ∀ (columns : List Column) {j : Nat} {done : List Cell}, last < j →
    firstRow p q last j done columns = .ok (done.reverse ++ .replicate columns.length Cell.empty)
  | [], j, done, _ => by simp [firstRow]
  | c :: columns, j, done, h => by
    have hout : ¬ (j ≤ last ∧ p.accepts q c = true) := fun hin => by omega
    rw [firstRow, if_neg hout]
    show firstRow p q last (j + 1) (Cell.empty :: done) columns = _
    rw [firstRow_of_lt columns (Nat.lt_succ_of_lt h), List.length_cons, List.replicate_succ,
      List.reverse_cons, List.append_assoc, List.singleton_append]

/-- The cells up to the last column are filled; no alignment ends on the others. -/
theorem fillFirst_of_firstRow : ∀ {count : Nat} {columns : List Column} {j : Nat}
    {done row : List Cell}, firstRow p q last j done columns = .ok row →
    Window p j columns → origin ≤ j → done.length = j - origin → j + count = last + 1 →
    count ≤ columns.length → done.length + columns.length ≤ height * wide →
      fillFirst p q (laid height wide origin done.reverse) j count =
        .ok (laid height wide origin row)
  | 0, columns, j, done, row, h, _, _, _, hlast, _, hroom => by
    rw [firstRow_of_lt columns (by omega)] at h
    obtain rfl := Except.ok.inj h
    rw [fillFirst, laid_append_empty (by rwa [List.length_reverse])]
  | count + 1, [], j, done, row, h, _, _, _, _, hcount, _ => by simp at hcount
  | count + 1, c :: columns, j, done, row, h, hcolumns, hj, hdone, hlast, hcount, hroom => by
    rw [List.length_cons] at hcount hroom
    have hnext {cell : Cell} (hrow : firstRow p q last (j + 1) (cell :: done) columns = .ok row) :
        fillFirst p q (laid height wide origin (cell :: done).reverse) (j + 1) count =
          .ok (laid height wide origin row) :=
      fillFirst_of_firstRow hrow hcolumns.tail (by omega) (by rw [List.length_cons]; omega)
        (by omega) (by omega) (by rw [List.length_cons]; omega)
    rw [firstRow] at h
    rw [fillFirst, fetch_eq_ok hcolumns.head]
    by_cases hq : p.accepts q c = true
    · rw [if_pos ⟨by omega, hq⟩] at h
      cases hprice : p.matchPrice q c with
      | error fault =>
        rw [hprice] at h
        cases h
      | ok price =>
        rw [hprice] at h
        have hplace : done.reverse.length = 0 * wide + (j - origin) := by
          rw [List.length_reverse]
          omega
        have hspace : done.reverse.length < height * wide := by
          rw [List.length_reverse]
          omega
        have hput : (laid height wide origin done.reverse).putScore 0 j price =
            .ok (laid height wide origin (⟨price, noColumn⟩ :: done).reverse) := by
          rw [List.reverse_cons]
          exact putScore_laid_start hj hplace hspace price
        simp only [bind, Except.bind, if_pos hq, hprice, hput]
        exact hnext h
    · rw [if_neg fun hin => hq hin.2] at h
      have hblank : laid height wide origin (Cell.empty :: done).reverse =
          laid height wide origin done.reverse := by
        rw [List.reverse_cons]
        exact laid_append_empty (n := 1) (by rw [List.length_reverse]; omega)
      simp only [bind, Except.bind, if_neg hq, ← hblank]
      exact hnext h

/-! ## A row from the row above -/

variable {first lowest i j : Nat} {gap : Gap} {before : Int} {done row : List Cell}

/-- A row is as long as the row above it, and no alignment ends before the columns
    of its unit. -/
theorem exists_cells_of_sweep : ∀ {columns : List Column} {above : List Cell} {gap : Gap}
    {before : Int} {j : Nat} {done row : List Cell},
    sweep p q first last gap before j done columns above = .ok row →
    columns.length = above.length →
      ∃ cells, row = done.reverse ++ cells ∧ cells.length = columns.length ∧
        ∀ t cell, cells[t]? = some cell → j + t < first → cell = Cell.empty
  | [], above, gap, before, j, done, row, h, _ => by
    rw [sweep] at h
    · exact ⟨[], by rw [List.append_nil, Except.ok.inj h], rfl, by simp⟩
    · simp
  | c :: columns, [], gap, before, j, done, row, h, hlen => by simp at hlen
  | c :: columns, cell₀ :: above, gap, before, j, done, row, h, hlen => by
    rw [sweep] at h
    split at h
    · cases h
    · rename_i cell hcell
      obtain ⟨cells, rfl, hcount, hempty⟩ := exists_cells_of_sweep h (by simpa using hlen)
      refine ⟨cell :: cells, by simp, by simp [hcount], ?_⟩
      rintro (_ | t) cell' ht hj
      · obtain rfl : cell = cell' := by simpa using ht
        rw [if_neg fun hin => by omega] at hcell
        exact (Except.ok.inj hcell).symm
      · exact hempty t cell' (by simpa using ht) (by omega)

/-- No alignment ends after the columns of the unit. -/
theorem sweep_of_lt : ∀ {columns : List Column} {above : List Cell} {gap : Gap} {before : Int}
    {j : Nat} {done : List Cell}, last < j → columns.length = above.length →
      sweep p q first last gap before j done columns above =
        .ok (done.reverse ++ .replicate columns.length Cell.empty)
  | [], above, gap, before, j, done, _, _ => by
    rw [sweep]
    · simp
    · simp
  | c :: columns, [], gap, before, j, done, _, hlen => by simp at hlen
  | c :: columns, cell₀ :: above, gap, before, j, done, hj, hlen => by
    have hout : ¬ (first ≤ j ∧ j ≤ last ∧ p.accepts q c = true) := fun hin => by omega
    rw [sweep, if_neg hout]
    dsimp only
    rw [sweep_of_lt (Nat.lt_succ_of_lt hj) (by simpa using hlen), List.length_cons,
      List.replicate_succ, List.reverse_cons, List.append_assoc, List.singleton_append]

theorem Gap.skip_none (prices : Prices) (k : Nat) (c : Column) :
    Gap.none.skip prices unreached k c = Gap.none := by
  simp [Gap.skip, Gap.none]

/-- Up to the first column on which an alignment ends above, there is nothing to be
    done. -/
theorem sweep_blank (hfirst : lowest < first) : ∀ {columns : List Column} {above : List Cell}
    {j : Nat} {done : List Cell}, columns.length = above.length → j ≤ lowest →
    (∀ t cell, above[t]? = some cell → j + t < lowest → cell = Cell.empty) → ∀ {cell : Cell},
    above[lowest - j]? = some cell →
      sweep p q first last Gap.none unreached j done columns above =
        sweep p q first last Gap.none cell.score (lowest + 1)
          (.replicate (lowest + 1 - j) Cell.empty ++ done) (columns.drop (lowest + 1 - j))
          (above.drop (lowest + 1 - j))
  | columns, [], j, done, _, _, _, cell, hcell => by simp at hcell
  | [], cell₀ :: above, j, done, hlen, _, _, cell, hcell => by simp at hlen
  | c :: columns, cell₀ :: above, j, done, hlen, hj, hempty, cell, hcell => by
    have hout : ¬ (first ≤ j ∧ j ≤ last ∧ p.accepts q c = true) := fun hin => by omega
    rw [sweep, if_neg hout]
    dsimp only
    rw [Gap.skip_none]
    obtain rfl | hlt := Nat.eq_or_lt_of_le hj
    · obtain rfl : cell₀ = cell := by simpa using hcell
      simp
    · have hstep : lowest - j = lowest - (j + 1) + 1 := by omega
      have hcount : lowest + 1 - j = lowest + 1 - (j + 1) + 1 := by omega
      rw [hstep, List.getElem?_cons_succ] at hcell
      rw [hempty 0 cell₀ rfl hlt, Cell.empty, sweep_blank hfirst (by simpa using hlen) hlt ?_ hcell,
        hcount, List.drop_succ_cons, List.drop_succ_cons, List.replicate_succ', List.append_assoc]
      · rfl
      · intro t cell' ht ht'
        exact hempty (t + 1) cell' ht (by omega)

theorem cellAt_eq_entry (c : Column) : cellAt p q gap before j c =
    if (entry p gap before j).score ≤ unreached then Except.ok Cell.empty
    else (p.matchPrice q c).bind fun price =>
      .ok ⟨saturate32 ((entry p gap before j).score + price), (entry p gap before j).source⟩ :=
  rfl

theorem sub_one_mul_add (hi : 0 < i) : (i - 1) * wide + wide = i * wide := by
  rw [← Nat.succ_mul, Nat.succ_eq_add_one, Nat.sub_add_cancel hi]

section
variable {rows above : List Cell} (hrows : rows.length = (i - 1) * wide)
  (habove : above.length = wide)
include hrows

/-- The row above can be read while a row is filled. -/
theorem score_above {t : Nat} {cell : Cell} (h : above[t]? = some cell) (hj : j = origin + t)
    (cells : List Cell) :
    (laid height wide origin (rows ++ above ++ cells)).score (i - 1) j = .ok cell.score := by
  have hj' : j - origin = t := by omega
  refine score_laid (by omega) ?_
  rw [List.append_assoc, hj']
  exact getElem?_row hrows h cells

include habove

/-- The next cell is filled, or left if no alignment ends on it. -/
theorem fillCell_of_cellAt (hi : 0 < i) {c : Column} (hc : p.columns[j]? = some c)
    {cell₀ cell : Cell} (hcell₀ : above[j - 1 - origin]? = some cell₀) (horigin : origin < j)
    (hcell : (if first ≤ j ∧ j ≤ last ∧ p.accepts q c then cellAt p q gap cell₀.score j c
      else .ok Cell.empty) = .ok cell) (hlast : j ≤ last) (hdone : done.length = j - origin)
    (hroom : i * wide + (j - origin) < height * wide) :
    fillCell p q i first (laid height wide origin (rows ++ above ++ done.reverse)) gap j =
      .ok (laid height wide origin (rows ++ above ++ (cell :: done).reverse)) := by
  have hcount : (rows ++ above ++ done.reverse).length = i * wide + (j - origin) := by
    simp only [List.length_append, List.length_reverse, hrows, habove, hdone,
      sub_one_mul_add hi]
  have hskip : laid height wide origin (rows ++ above ++ (Cell.empty :: done).reverse) =
      laid height wide origin (rows ++ above ++ done.reverse) := by
    rw [List.reverse_cons, ← List.append_assoc]
    exact laid_append_empty (n := 1) (by omega)
  have hbefore : (laid height wide origin (rows ++ above ++ done.reverse)).score (i - 1) (j - 1) =
      .ok cell₀.score := score_above hrows hcell₀ (by omega) _
  rw [fillCell, fetch_eq_ok hc]
  simp only [bind, Except.bind, pure, Except.pure, hbefore]
  by_cases hin : first ≤ j ∧ p.accepts q c = true
  · rw [if_pos ⟨hin.1, hlast, hin.2⟩] at hcell
    have hmatch : ¬ (j < first ∨ p.accepts q c = false) := by
      rw [not_or, Nat.not_lt, Bool.not_eq_false]
      exact hin
    rw [cellAt_eq_entry] at hcell
    rw [if_neg hmatch]
    split at hcell
    · rename_i hlow
      rw [if_pos hlow, ← Except.ok.inj hcell, hskip]
    · rename_i hlow
      obtain ⟨price, hprice, hcell⟩ := bind_eq_ok hcell
      rw [if_neg hlow, hprice, ← Except.ok.inj hcell, List.reverse_cons, ← List.append_assoc]
      exact put_laid (by omega) hcount (by omega) _
  · rw [if_neg fun h => hin ⟨h.1, h.2.2⟩] at hcell
    have hout : j < first ∨ p.accepts q c = false := by
      by_contra hnot
      rw [not_or, Nat.not_lt, Bool.not_eq_false] at hnot
      exact hin hnot
    rw [if_pos hout, ← Except.ok.inj hcell, hskip]

/-- The cells are filled one after another, as in a sweep.  A sweep has taken its gap
    to the column `j` when it comes there; here the gap is one column behind. -/
theorem fillRow_of_sweep (hi : 0 < i) (horigin : origin ≤ lowest) (hwide : last < origin + wide)
    (hroom : (i + 1) * wide ≤ height * wide) :
    ∀ {count : Nat} {columns : List Column} {j : Nat} {gap gap' : Gap} {cell₀ : Cell}
      {done row : List Cell},
    sweep p q first last gap cell₀.score j done columns (above.drop (j - origin)) = .ok row →
    Window p j columns → columns.length = (above.drop (j - origin)).length → lowest < j →
    done.length = j - origin →
    gapAt p i lowest (laid height wide origin (rows ++ above ++ done.reverse)) gap' j = .ok gap →
    above[j - 1 - origin]? = some cell₀ → j + count = last + 1 →
      fillRow p q i lowest first (laid height wide origin (rows ++ above ++ done.reverse)) gap' j
        count = .ok (laid height wide origin (rows ++ above ++ row))
  | 0, columns, j, gap, gap', cell₀, done, row, h, _, hlen, hj, hdone, _, _, hlast => by
    have hcount : (rows ++ above ++ done.reverse).length + columns.length ≤ height * wide := by
      rw [Nat.succ_mul, ← sub_one_mul_add hi] at hroom
      simp only [List.length_append, List.length_reverse, List.length_drop] at hlen ⊢
      omega
    rw [sweep_of_lt (by omega) hlen] at h
    rw [fillRow, ← Except.ok.inj h, ← List.append_assoc, laid_append_empty hcount]
  | count + 1, columns, j, gap, gap', cell₀, done, row, h, hcolumns, hlen, hj, hdone, hgap,
      hbefore, hlast => by
    have hlt : j - origin < above.length := by omega
    rw [List.drop_eq_getElem_cons hlt] at h hlen
    match columns, h, hcolumns, hlen with
    | c :: columns, h, hcolumns, hlen =>
      rw [sweep] at h
      split at h
      · cases h
      · rename_i cell hcell
        have hspace : i * wide + (j - origin) < height * wide := by
          rw [Nat.succ_mul] at hroom
          omega
        have hfill := fillCell_of_cellAt hrows habove hi hcolumns.head hbefore (by omega) hcell
          (by omega) hdone hspace
        have hopen : gapAt p i lowest
            (laid height wide origin (rows ++ above ++ (cell :: done).reverse)) gap (j + 1) =
              .ok (gap.skip p.prices cell₀.score (j - 1) c) := by
          rw [gapAt, if_pos (by omega), score_above hrows hbefore (by omega), Nat.add_sub_cancel,
            fetch_eq_ok hcolumns.head]
          rfl
        have habove' : above[j + 1 - 1 - origin]? = some above[j - origin] := by
          rw [Nat.add_sub_cancel, List.getElem?_eq_getElem hlt]
        rw [← Nat.sub_add_comm (by omega)] at h
        rw [fillRow, hgap]
        simp only [bind, Except.bind, hfill]
        refine fillRow_of_sweep hi horigin hwide hroom h hcolumns.tail ?_ (by omega) ?_ hopen
          habove' (by omega)
        · rw [List.length_cons] at hlen
          simp only [List.length_cons, List.length_drop] at hlen ⊢
          omega
        · rw [List.length_cons, hdone]
          omega

/-- The cells from the column after `lowest` on are filled; a sweep does nothing before
    that, where the row above is blank. -/
theorem fillRow_of_blank (hi : 0 < i) (horigin : origin ≤ lowest) (hfirst : lowest < first)
    (hlast : lowest ≤ last) (hwide : last < origin + wide) (hroom : (i + 1) * wide ≤ height * wide)
    {columns : List Column} (hcolumns : Window p origin columns) (hlen : columns.length = wide)
    (hempty : ∀ t cell, above[t]? = some cell → origin + t < lowest → cell = Cell.empty)
    (h : sweep p q first last Gap.none unreached origin [] columns above = .ok row) :
    fillRow p q i lowest first (laid height wide origin (rows ++ above)) Gap.none (lowest + 1)
      (last - lowest) = .ok (laid height wide origin (rows ++ above ++ row)) := by
  have hlow : lowest - origin < above.length := by omega
  have hread : above[lowest + 1 - 1 - origin]? = some above[lowest - origin] := by
    rw [Nat.add_sub_cancel, List.getElem?_eq_getElem hlow]
  have hgap (g : Grid) : gapAt p i lowest g Gap.none (lowest + 1) = .ok Gap.none := by
    rw [gapAt, if_neg (by omega)]
  have hblank : laid height wide origin (rows ++ above) = laid height wide origin
      (rows ++ above ++ (List.replicate (lowest + 1 - origin) Cell.empty ++ []).reverse) := by
    rw [List.append_nil, List.reverse_replicate, laid_append_empty]
    rw [Nat.succ_mul, ← sub_one_mul_add hi] at hroom
    rw [List.length_append, hrows, habove]
    omega
  rw [sweep_blank hfirst (hlen.trans habove.symm) horigin hempty (List.getElem?_eq_getElem hlow)]
    at h
  rw [hblank]
  have hrest : Window p (lowest + 1) (columns.drop (lowest + 1 - origin)) := by
    have hdrop := hcolumns.drop (lowest + 1 - origin)
    rwa [Nat.add_sub_cancel' (Nat.le_succ_of_le horigin)] at hdrop
  exact fillRow_of_sweep hrows habove hi horigin hwide hroom h hrest
    (by rw [List.length_drop, List.length_drop, hlen, habove]) (Nat.lt_succ_self _) (by simp)
    (hgap _) hread (by omega)

end

/-! ## All rows -/

theorem length_flatten_rows {rows : List (List Cell)} (h : ∀ row ∈ rows, row.length = wide) :
    rows.flatten.length = rows.length * wide := by
  rw [List.length_flatten, List.map_congr_left h, List.map_const', List.sum_replicate,
    Nat.nsmul_eq_mul]

/-- The rows below the first are filled one after another. -/
theorem fillRows_of_rowsBelow {first last : List Nat} {columns : List Column}
    (hinc : first.Pairwise (· < ·)) (hcolumns : Window p origin columns)
    (hlen : columns.length = wide) :
    ∀ {units : List (TextUnit × Nat × Nat)} {row row' : List Cell} {above above' : List (List Cell)}
      {lowest : Nat},
    rowsBelow p origin columns row above units = .ok (row', above') →
    (∀ cells ∈ row :: above, cells.length = wide) →
    (∀ t u, units[t]? = some u → first[above.length + 1 + t]? = some u.2.1 ∧
      last[above.length + 1 + t]? = some u.2.2 ∧ u.2.1 ≤ u.2.2 ∧ u.2.2 < origin + wide) →
    first[above.length]? = some lowest → origin ≤ lowest →
    (∀ t cell, row[t]? = some cell → origin + t < lowest → cell = Cell.empty) →
    above.length + 1 + units.length ≤ height →
      fillRows p first.toArray last.toArray (above.length + 1)
          (laid height wide origin (row :: above).reverse.flatten) (units.map Prod.fst) =
        .ok (laid height wide origin (row' :: above').reverse.flatten) ∧
      (∀ cells ∈ row' :: above', cells.length = wide) ∧
      above'.length = above.length + units.length
  | [], row, row', above, above', lowest, h, hrows, _, _, _, _, _ => by
    rw [rowsBelow] at h
    cases h
    exact ⟨rfl, hrows, rfl⟩
  | (q, f, l) :: units, row, row', above, above', lowest, h, hrows, hunits, hlowest, horigin,
      hempty, hheight => by
    rw [List.length_cons] at hheight
    rw [rowsBelow] at h
    split at h
    · cases h
    · rename_i next hnext
      obtain ⟨hrow, habove⟩ := List.forall_mem_cons.1 hrows
      obtain ⟨hf, hl, hle, hwide⟩ := hunits 0 _ rfl
      dsimp only [Nat.add_zero] at hf hl hle hwide
      have hlt : lowest < f := by
        obtain ⟨hi, rfl⟩ := List.getElem?_eq_some_iff.1 hlowest
        obtain ⟨hi', rfl⟩ := List.getElem?_eq_some_iff.1 hf
        exact List.pairwise_iff_getElem.1 hinc _ _ hi hi' (Nat.lt_succ_self _)
      have hbefore : above.reverse.flatten.length = (above.length + 1 - 1) * wide := by
        rw [length_flatten_rows (by simpa using habove), List.length_reverse, Nat.add_sub_cancel]
      have hfill := fillRow_of_blank hbefore hrow (Nat.succ_pos _) horigin hlt (by omega) hwide
        (Nat.mul_le_mul_right wide (by omega : above.length + 1 + 1 ≤ height)) hcolumns hlen hempty
        hnext
      obtain ⟨cells, rfl, hcells, hblank⟩ := exists_cells_of_sweep hnext (hlen.trans hrow.symm)
      have hshift (t : Nat) : (row :: above).length + 1 + t = above.length + 1 + (t + 1) := by
        rw [List.length_cons]
        omega
      obtain ⟨hrest, hrows', hcount⟩ := fillRows_of_rowsBelow hinc hcolumns hlen h
        (List.forall_mem_cons.2 ⟨hcells.trans hlen, hrows⟩)
        (fun t u hu => by simpa only [hshift] using hunits (t + 1) u hu) hf (by omega) hblank
        (by rw [List.length_cons]; omega)
      refine ⟨?_, hrows', by rw [hcount, List.length_cons, List.length_cons]; omega⟩
      rw [List.map_cons, fillRows, Nat.add_sub_cancel, fetch_toArray hlowest, fetch_toArray hf,
        fetch_toArray hl, flatten_reverse_cons]
      simp only [bind, Except.bind, hfill]
      rwa [← flatten_reverse_cons, ← flatten_reverse_cons]

/-! ## Reading the table -/

/-- The cells before the columns asked for are passed over. -/
theorem bestEnd_of_le : ∀ {row : List Cell} {j : Nat} (score : Int) (stop : Nat), j ≤ first →
    first - j ≤ row.length → bestEnd first last score stop j row =
      bestEnd first last score stop first (row.drop (first - j))
  | [], j, score, stop, hj, hlen => by
    rw [List.drop_nil, bestEnd, bestEnd]
  | cell :: row, j, score, stop, hj, hlen => by
    obtain rfl | hlt := Nat.eq_or_lt_of_le hj
    · rw [Nat.sub_self, List.drop_zero]
    · have hcount : first - j = first - (j + 1) + 1 := by omega
      rw [List.length_cons] at hlen
      rw [bestEnd, if_neg fun hin => by omega, bestEnd_of_le score stop hlt (by omega), hcount,
        List.drop_succ_cons]

/-- The cells after them are passed over as well. -/
theorem bestEnd_of_lt : ∀ {row : List Cell} {j : Nat} (score : Int) (stop : Nat), last < j →
    bestEnd first last score stop j row = (score, stop)
  | [], j, score, stop, _ => rfl
  | cell :: row, j, score, stop, hj => by
    rw [bestEnd, if_neg fun hin => by omega, bestEnd_of_lt score stop (Nat.lt_succ_of_lt hj)]

/-- The best cell of the last row filled. -/
theorem bestIn_eq_bestEnd {rows : List Cell} (hrows : rows.length = i * wide)
    (hlast : last < origin + row.length) : ∀ {count j : Nat} {score : Int} {stop : Nat},
    first ≤ j → origin ≤ j → j + count = last + 1 →
      bestIn (laid height wide origin (rows ++ row)) i score stop j count =
        .ok (bestEnd first last score stop j (row.drop (j - origin)))
  | 0, j, score, stop, _, _, hcount => by
    rw [bestIn, bestEnd_of_lt score stop (by omega)]
  | count + 1, j, score, stop, hfirst, horigin, hcount => by
    have hlt : j - origin < row.length := by omega
    have hread : (laid height wide origin (rows ++ row)).score i j = .ok row[j - origin].score := by
      have hget := getElem?_row hrows (List.getElem?_eq_getElem hlt) []
      rw [List.append_nil] at hget
      exact score_laid horigin hget
    have hstep : j - origin + 1 = j + 1 - origin := by omega
    rw [bestIn, hread, List.drop_eq_getElem_cons hlt, bestEnd, hstep]
    simp only [bind, Except.bind]
    by_cases hbetter : score < row[j - origin].score
    · rw [if_pos hbetter, if_pos ⟨hfirst, by omega, hbetter⟩]
      exact bestIn_eq_bestEnd hrows hlast (by omega) (by omega) (by omega)
    · rw [if_neg hbetter, if_neg fun hin => hbetter hin.2.2]
      exact bestIn_eq_bestEnd hrows hlast (by omega) (by omega) (by omega)

/-- The table is followed back from its last row. -/
theorem traceIn_of_trace {base : List Cell} (hbase : base.length = wide) {count : Nat} :
    ∀ {rows : List (List Cell)} {below : List Cell} {acc path : List Nat} {j : Nat},
    trace origin wide count acc below j rows = .ok path → (∀ row ∈ rows, row.length = wide) →
      traceIn (laid height wide origin ((base :: rows.reverse).flatten ++ below))
        (List.replicate (rows.length + 1) 0 ++ acc).toArray j (rows.length + 1) = .ok path.toArray
  | [], below, acc, path, j, h, _ => by
    rw [trace] at h
    rw [traceIn, List.length_nil, store_zeros]
    simp [bind, Except.bind, pure, Except.pure, ← Except.ok.inj h]
  | row :: rows, below, acc, path, j, h, hrows => by
    obtain ⟨hrow, hrows'⟩ := List.forall_mem_cons.1 hrows
    rw [trace] at h
    split at h
    · cases h
    · rename_i hj
      split at h
      · rename_i cell hcell
        have hcells : (base :: (row :: rows).reverse).flatten ++ below =
            (base :: rows.reverse).flatten ++ (row ++ below) := by
          simp
        have hcount : (base :: rows.reverse).flatten.length = (rows.length + 1) * wide := by
          rw [length_flatten_rows (List.forall_mem_cons.2 ⟨hbase, by simpa using hrows'⟩),
            List.length_cons, List.length_reverse]
        have hread := getElem?_row hcount hcell []
        rw [List.append_nil] at hread
        have hback := @previous_laid height wide origin _ _ _ _ (Nat.not_lt.1 hj) hread
        rw [hcells, List.length_cons, traceIn, store_zeros]
        simp only [bind, Except.bind, hback, Nat.add_eq_zero_iff, Nat.one_ne_zero, and_false,
          if_false]
        exact traceIn_of_trace hbase h hrows'
      · cases h

end FuzzyPath.Alignment
