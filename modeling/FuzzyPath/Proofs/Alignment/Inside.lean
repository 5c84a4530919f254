/-
  FuzzyPath — the table is never left.

  A row is read and written between two columns only, and these are columns of
  the table.  The loops here do what those that fill the table do, but have no
  result as soon as a cell is asked for that the table does not have.

  * `Grid.within` checks the row and the column of a cell, each for itself;
  * `fillTableWithin` and `bestInWithin` are `fillTable` and `bestIn` with each cell
    checked;
  * `fillFirst_inside` and `fillRow_inside` are what one row keeps, `fillRows_inside`
    what all do, and `fillTable_inside` is the whole: the checks change nothing, and
    only a price that does not fit is left as a reason to fail;
  * `bestIn_inside`: neither do they where the best cell of a row is looked for.
-/
import FuzzyPath.Alignment.Buffers
import FuzzyPath.Proofs.Alignment.Scanning

namespace FuzzyPath

/-! ## Reasons to fail -/

/-- A result of which `good` holds, or a sum that does not fit. -/
def Settles {α : Type} (good : α → Prop) : Except Fault α → Prop
  | .ok a => good a
  | .error fault => fault = .additionOverflow

theorem Settles.bind {α β : Type} {good : α → Prop} {better : β → Prop} {x : Except Fault α}
    {f : α → Except Fault β} (hx : Settles good x) (hf : ∀ a, good a → Settles better (f a)) :
    Settles better (x.bind f) := by
  cases x with
  | ok a => exact hf a hx
  | error fault => exact hx

theorem settles_add32 (x y : Int) : Settles (fun _ => True) (add32 x y) := by
  rw [add32]
  split
  · trivial
  · rfl

/-- An element inside an array is there. -/
theorem exists_fetch {α : Type} {xs : Array α} {i : Nat} (h : i < xs.size) :
    ∃ x, fetch xs i = .ok x :=
  ⟨xs[i], fetch_eq_ok (Array.getElem?_eq_getElem h)⟩

/-- One inside it can be exchanged. -/
theorem exists_store {α : Type} {xs : Array α} {i : Nat} (h : i < xs.size) (x : α) :
    ∃ ys, store xs i x = .ok ys ∧ ys.size = xs.size :=
  ⟨xs.set i x h, by rw [store, dif_pos h], Array.size_set h⟩

namespace Alignment

theorem settles_matchPrice (p : Problem) (q : TextUnit) (c : Column) :
    Settles (fun _ => True) (p.matchPrice q c) :=
  (settles_add32 _ _).bind fun _ _ => settles_add32 _ _

/-! ## Cells of a table -/

namespace Grid

/-- What is done with the cell of the row `i` on the column `j`, if a table of
    `height` rows has it. -/
def within {α : Type} (g : Grid) (height i j : Nat) (x : Except Fault α) : Except Fault α :=
  if i < height ∧ g.origin ≤ j ∧ j < g.origin + g.wide then x
  else .error (.indexOutOfRange (i * g.wide + (j - g.origin)) (height * g.wide))

/-- A table of `height` rows of `wide` cells, for the columns from `origin` on. -/
structure Fits (height wide origin : Nat) (g : Grid) : Prop where
  wide_eq : g.wide = wide
  origin_eq : g.origin = origin
  table_size : g.table.size = height * wide
  back_size : g.back.size = height * wide

theorem blank_fits (height wide origin : Nat) :
    (blank height wide origin).Fits height wide origin :=
  ⟨rfl, rfl, Array.size_replicate, Array.size_replicate⟩

namespace Fits
variable {height wide origin i j : Nat} {g : Grid} (h : g.Fits height wide origin)
  (hi : i < height) (hlow : origin ≤ j) (hhigh : j < origin + wide)
include h hi hlow hhigh

theorem within_eq {α : Type} (x : Except Fault α) : g.within height i j x = x := by
  rw [within, h.wide_eq, h.origin_eq, if_pos ⟨hi, hlow, hhigh⟩]

/-- A cell of the table stands in the arrays. -/
theorem exists_place : ∃ k, g.place i j = .ok k ∧ k < height * wide := by
  have hrow : (i + 1) * wide ≤ height * wide := Nat.mul_le_mul_right wide hi
  rw [Nat.succ_mul] at hrow
  rw [place, h.wide_eq, h.origin_eq, if_neg (Nat.not_lt.2 hlow)]
  exact ⟨_, rfl, by omega⟩

theorem exists_score : ∃ score, g.score i j = .ok score := by
  obtain ⟨k, hplace, hk⟩ := h.exists_place hi hlow hhigh
  rw [score, hplace]
  exact exists_fetch (h.table_size ▸ hk)

theorem exists_putScore (score : Int) :
    ∃ g', g.putScore i j score = .ok g' ∧ g'.Fits height wide origin := by
  obtain ⟨k, hplace, hk⟩ := h.exists_place hi hlow hhigh
  obtain ⟨table, hstore, hsize⟩ := exists_store (h.table_size ▸ hk : k < g.table.size) score
  refine ⟨{ g with table }, ?_, h.wide_eq, h.origin_eq, hsize.trans h.table_size, h.back_size⟩
  simp only [putScore, hplace, bind, Except.bind, hstore]
  rfl

theorem exists_put (cell : Cell) :
    ∃ g', g.put i j cell = .ok g' ∧ g'.Fits height wide origin := by
  obtain ⟨g', hput, hfits⟩ := h.exists_putScore hi hlow hhigh cell.score
  obtain ⟨k, hplace, hk⟩ := hfits.exists_place hi hlow hhigh
  obtain ⟨back, hstore, hsize⟩ := exists_store (hfits.back_size ▸ hk : k < g'.back.size) cell.back
  refine ⟨{ g' with back }, ?_, hfits.wide_eq, hfits.origin_eq, hfits.table_size,
    hsize.trans hfits.back_size⟩
  simp only [put, hput, bind, Except.bind, hplace, hstore]
  rfl

end Fits

end Grid

open Grid

/-! ## Filling with checks -/

/-- `fillFirst` with each cell checked. -/
def fillFirstWithin (height : Nat) (p : Problem) (q : TextUnit) (g : Grid) (j : Nat) :
    Nat → Except Fault Grid
  | 0 => .ok g
  | count + 1 => do
    let c ← fetch p.columns j
    if p.accepts q c then
      let price ← p.matchPrice q c
      fillFirstWithin height p q (← g.within height 0 j (g.putScore 0 j price)) (j + 1) count
    else fillFirstWithin height p q g (j + 1) count

/-- `gapAt` with each cell checked. -/
def gapAtWithin (height : Nat) (p : Problem) (i lowest : Nat) (g : Grid) (gap : Gap) (j : Nat) :
    Except Fault Gap :=
  if lowest + 2 ≤ j then do
    let above ← g.within height (i - 1) (j - 2) (g.score (i - 1) (j - 2))
    return gap.skip p.prices above (j - 2) (← fetch p.columns (j - 1))
  else .ok gap

/-- `fillCell` with each cell checked. -/
def fillCellWithin (height : Nat) (p : Problem) (q : TextUnit) (i first : Nat) (g : Grid)
    (gap : Gap) (j : Nat) : Except Fault Grid := do
  let c ← fetch p.columns j
  if j < first ∨ p.accepts q c = false then return g
  else
    let best := entry p gap (← g.within height (i - 1) (j - 1) (g.score (i - 1) (j - 1))) j
    if best.score ≤ unreached then return g
    else
      let price ← p.matchPrice q c
      g.within height i j (g.put i j ⟨saturate32 (best.score + price), best.source⟩)

/-- `fillRow` with each cell checked. -/
def fillRowWithin (height : Nat) (p : Problem) (q : TextUnit) (i lowest first : Nat) (g : Grid)
    (gap : Gap) (j : Nat) : Nat → Except Fault Grid
  | 0 => .ok g
  | count + 1 => do
    let gap ← gapAtWithin height p i lowest g gap j
    let g ← fillCellWithin height p q i first g gap j
    fillRowWithin height p q i lowest first g gap (j + 1) count

/-- `fillRows` with each cell checked. -/
def fillRowsWithin (height : Nat) (p : Problem) (first last : Array Nat) (i : Nat) (g : Grid) :
    List TextUnit → Except Fault Grid
  | [] => .ok g
  | q :: query => do
    let lowest ← fetch first (i - 1)
    let g ← fillRowWithin height p q i lowest (← fetch first i) g Gap.none (lowest + 1)
      ((← fetch last i) - lowest)
    fillRowsWithin height p first last (i + 1) g query

/-- `fillTable` with each cell checked. -/
def fillTableWithin (p : Problem) (first last : Array Nat) (wide : Nat) : Except Fault Grid := do
  let origin ← fetch first 0
  let g := Grid.blank p.query.length wide origin
  let g ← fillFirstWithin p.query.length p (← fetch p.query.toArray 0) g origin
    ((← fetch last 0) + 1 - origin)
  fillRowsWithin p.query.length p first last 1 g p.query.tail

/-- `bestIn` with each cell checked. -/
def bestInWithin (height : Nat) (g : Grid) (i : Nat) (score : Int) (stop j : Nat) :
    Nat → Except Fault (Int × Nat)
  | 0 => .ok (score, stop)
  | count + 1 => do
    let value ← g.within height i j (g.score i j)
    if score < value then bestInWithin height g i value j (j + 1) count
    else bestInWithin height g i score stop (j + 1) count

/-! ## Between the columns of the table -/

section
variable {p : Problem} {q : TextUnit} {height wide origin i j lowest first : Nat} {gap : Gap}
  (hcolumns : origin + wide ≤ p.columns.size)
include hcolumns

theorem fillFirst_inside (hheight : 0 < height) : ∀ {count j : Nat} {g : Grid},
    g.Fits height wide origin → origin ≤ j → j + count ≤ origin + wide →
      fillFirstWithin height p q g j count = fillFirst p q g j count ∧
        Settles (Fits height wide origin) (fillFirst p q g j count)
  | 0, j, g, hg, _, _ => ⟨rfl, hg⟩
  | count + 1, j, g, hg, hlow, hhigh => by
    obtain ⟨c, hc⟩ : ∃ c, fetch p.columns j = .ok c := exists_fetch (by omega)
    rw [fillFirstWithin, fillFirst, hc]
    simp only [bind, Except.bind]
    split
    · have hprice := settles_matchPrice p q c
      cases hmatch : p.matchPrice q c with
      | error fault =>
        rw [hmatch] at hprice
        exact ⟨rfl, hprice⟩
      | ok price =>
        obtain ⟨g', hput, hg'⟩ := hg.exists_putScore hheight hlow (by omega) price
        simp only [hg.within_eq hheight hlow (by omega), hput]
        exact fillFirst_inside hheight hg' (by omega) (by omega)
    · exact fillFirst_inside hheight hg (by omega) (by omega)

section
variable (hi : 0 < i) (hheight : i < height) {g : Grid} (hg : g.Fits height wide origin)
include hi hheight hg

theorem gapAt_inside (hlowest : origin ≤ lowest) (hj : j < origin + wide) :
    gapAtWithin height p i lowest g gap j = gapAt p i lowest g gap j ∧
      ∃ next, gapAt p i lowest g gap j = .ok next := by
  rw [gapAtWithin, gapAt]
  split
  · obtain ⟨above, habove⟩ : ∃ above, g.score (i - 1) (j - 2) = .ok above :=
      hg.exists_score (by omega) (by omega) (by omega)
    obtain ⟨c, hc⟩ : ∃ c, fetch p.columns (j - 1) = .ok c := exists_fetch (by omega)
    rw [hg.within_eq (by omega) (by omega) (by omega), habove, hc]
    exact ⟨rfl, _, rfl⟩
  · exact ⟨rfl, gap, rfl⟩

theorem fillCell_inside (hlow : origin < j) (hj : j < origin + wide) :
    fillCellWithin height p q i first g gap j = fillCell p q i first g gap j ∧
      Settles (Fits height wide origin) (fillCell p q i first g gap j) := by
  obtain ⟨c, hc⟩ : ∃ c, fetch p.columns j = .ok c := exists_fetch (by omega)
  obtain ⟨before, hbefore⟩ : ∃ before, g.score (i - 1) (j - 1) = .ok before :=
    hg.exists_score (by omega) (by omega) (by omega)
  rw [fillCellWithin, fillCell, hc, hg.within_eq (by omega) (by omega) (by omega), hbefore]
  simp only [bind, Except.bind, pure, Except.pure]
  split
  · exact ⟨rfl, hg⟩
  · split
    · exact ⟨rfl, hg⟩
    · have hprice := settles_matchPrice p q c
      cases hmatch : p.matchPrice q c with
      | error fault =>
        rw [hmatch] at hprice
        exact ⟨rfl, hprice⟩
      | ok price =>
        obtain ⟨g', hput, hg'⟩ := hg.exists_put hheight (Nat.le_of_lt hlow) hj
          ⟨saturate32 ((entry p gap before j).score + price), (entry p gap before j).source⟩
        simp only [hg.within_eq hheight (Nat.le_of_lt hlow) hj, hput]
        exact ⟨trivial, hg'⟩

end

/-- A row is filled between its columns. -/
theorem fillRow_inside (hi : 0 < i) (hheight : i < height) (hlowest : origin ≤ lowest) :
    ∀ {count j : Nat} {g : Grid} {gap : Gap}, g.Fits height wide origin → lowest < j →
      j + count ≤ origin + wide →
      fillRowWithin height p q i lowest first g gap j count =
          fillRow p q i lowest first g gap j count ∧
        Settles (Fits height wide origin) (fillRow p q i lowest first g gap j count)
  | 0, j, g, gap, hg, _, _ => ⟨rfl, hg⟩
  | count + 1, j, g, gap, hg, hlow, hhigh => by
    obtain ⟨hgap, next, hnext⟩ :
        gapAtWithin height p i lowest g gap j = gapAt p i lowest g gap j ∧
          ∃ next, gapAt p i lowest g gap j = .ok next :=
      gapAt_inside hcolumns hi hheight hg hlowest (by omega)
    obtain ⟨hcell, hfits⟩ :
        fillCellWithin height p q i first g next j = fillCell p q i first g next j ∧
          Settles (Fits height wide origin) (fillCell p q i first g next j) :=
      fillCell_inside hcolumns hi hheight hg (by omega) (by omega)
    rw [fillRowWithin, fillRow, hgap, hnext]
    simp only [bind, Except.bind, hcell]
    cases hfill : fillCell p q i first g next j with
    | error fault =>
      rw [hfill] at hfits
      exact ⟨rfl, hfits⟩
    | ok g' =>
      rw [hfill] at hfits
      exact fillRow_inside hi hheight hlowest hfits (by omega) (by omega)

/-- So are all rows below the first, whatever is asked of their bounds as long as
    these are columns of the table. -/
theorem fillRows_inside {firsts lasts : List Nat}
    (hfirsts : ∀ j ∈ firsts, origin ≤ j ∧ j < origin + wide)
    (hlasts : ∀ j ∈ lasts, origin ≤ j ∧ j < origin + wide) (hcount : firsts.length = height)
    (hcount' : lasts.length = height) : ∀ {query : List TextUnit} {i : Nat} {g : Grid},
    0 < i → i + query.length = height → g.Fits height wide origin →
      fillRowsWithin height p firsts.toArray lasts.toArray i g query =
          fillRows p firsts.toArray lasts.toArray i g query ∧
        Settles (Fits height wide origin) (fillRows p firsts.toArray lasts.toArray i g query)
  | [], i, g, _, _, hg => ⟨rfl, hg⟩
  | q :: query, i, g, hi, hlen, hg => by
    rw [List.length_cons] at hlen
    have hfetch {bounds : List Nat} (hbounds : bounds.length = height) {t : Nat} (ht : t < height) :
        ∃ j ∈ bounds, fetch bounds.toArray t = .ok j :=
      ⟨bounds[t], List.getElem_mem _, fetch_toArray (List.getElem?_eq_getElem _)⟩
    obtain ⟨lowest, hlowest, habove⟩ := hfetch hcount (t := i - 1) (by omega)
    obtain ⟨first, hfirst, hown⟩ := hfetch hcount (t := i) (by omega)
    obtain ⟨last, hlast, hend⟩ := hfetch hcount' (t := i) (by omega)
    have hlow := hfirsts lowest hlowest
    have hhigh := hlasts last hlast
    obtain ⟨hrow, hfits⟩ :
        fillRowWithin height p q i lowest first g Gap.none (lowest + 1) (last - lowest) =
            fillRow p q i lowest first g Gap.none (lowest + 1) (last - lowest) ∧
          Settles (Fits height wide origin)
            (fillRow p q i lowest first g Gap.none (lowest + 1) (last - lowest)) :=
      fillRow_inside hcolumns hi (by omega) hlow.1 hg (by omega) (by omega)
    rw [fillRowsWithin, fillRows, habove, hown, hend]
    simp only [bind, Except.bind, hrow]
    cases hfill : fillRow p q i lowest first g Gap.none (lowest + 1) (last - lowest) with
    | error fault =>
      rw [hfill] at hfits
      exact ⟨rfl, hfits⟩
    | ok g' =>
      rw [hfill] at hfits
      exact fillRows_inside hfirsts hlasts hcount hcount' (by omega) (by omega) hfits

/-- And so is the whole table. -/
theorem fillTable_inside {firsts lasts : List Nat} (hquery : p.query ≠ [])
    (horigin : firsts[0]? = some origin) (hfirsts : ∀ j ∈ firsts, origin ≤ j ∧ j < origin + wide)
    (hlasts : ∀ j ∈ lasts, origin ≤ j ∧ j < origin + wide)
    (hcount : firsts.length = p.query.length) (hcount' : lasts.length = p.query.length) :
    fillTableWithin p firsts.toArray lasts.toArray wide =
        fillTable p firsts.toArray lasts.toArray wide ∧
      Settles (Fits p.query.length wide origin)
        (fillTable p firsts.toArray lasts.toArray wide) := by
  have hheight : 0 < p.query.length := List.length_pos_iff.2 hquery
  obtain ⟨q, query, hunits⟩ := List.exists_cons_of_ne_nil hquery
  obtain ⟨last, hlast⟩ : ∃ last, lasts[0]? = some last :=
    ⟨_, List.getElem?_eq_getElem (hcount' ▸ hheight)⟩
  have hend := hlasts last (List.mem_of_getElem? hlast)
  have hstart : fetch p.query.toArray 0 = .ok q := fetch_toArray (by rw [hunits]; rfl)
  obtain ⟨hrow, hfits⟩ :
      fillFirstWithin p.query.length p q (blank p.query.length wide origin) origin
          (last + 1 - origin) =
        fillFirst p q (blank p.query.length wide origin) origin (last + 1 - origin) ∧
      Settles (Fits p.query.length wide origin)
        (fillFirst p q (blank p.query.length wide origin) origin (last + 1 - origin)) :=
    fillFirst_inside hcolumns hheight (blank_fits _ _ _) (Nat.le_refl _) (by omega)
  rw [fillTableWithin, fillTable, fetch_toArray horigin, fetch_toArray hlast, hstart]
  simp only [bind, Except.bind, hrow]
  cases hfill : fillFirst p q (blank p.query.length wide origin) origin (last + 1 - origin) with
  | error fault =>
    rw [hfill] at hfits
    exact ⟨rfl, hfits⟩
  | ok g =>
    rw [hfill] at hfits
    exact fillRows_inside hcolumns hfirsts hlasts hcount hcount' Nat.one_pos
      (by rw [hunits, List.tail_cons, List.length_cons, Nat.add_comm]) hfits

end

/-- The best cell of a row is looked for between columns of the table. -/
theorem bestIn_inside {height wide origin i : Nat} {g : Grid} (hg : g.Fits height wide origin)
    (hi : i < height) : ∀ {count j : Nat} {score : Int} {stop : Nat},
    origin ≤ j → j + count ≤ origin + wide →
      bestInWithin height g i score stop j count = bestIn g i score stop j count ∧
        ∃ best, bestIn g i score stop j count = .ok best
  | 0, j, score, stop, _, _ => ⟨rfl, _, rfl⟩
  | count + 1, j, score, stop, hlow, hhigh => by
    obtain ⟨value, hvalue⟩ := hg.exists_score hi hlow (by omega)
    rw [bestInWithin, bestIn, hg.within_eq hi hlow (by omega), hvalue]
    simp only [bind, Except.bind]
    split
    · exact bestIn_inside hg hi (by omega) (by omega)
    · exact bestIn_inside hg hi (by omega) (by omega)

end Alignment

end FuzzyPath
