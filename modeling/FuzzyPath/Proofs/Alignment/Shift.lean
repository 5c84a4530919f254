/-
  FuzzyPath — columns elsewhere in the text.

  A column remembers the byte offset of its unit, for the positions to be
  reported, but no alignment depends on it.

  * `TextUnit.shift`, `Column.shift` and `Problem.shift` move everything some
    bytes to the right;
  * `TextMode.decode_add`: so do the units of a text that stands further right;
  * `best_shift` and `greedy_shift`: neither way of aligning a query reads the
    offsets;
  * `solve_shift`: a query is aligned with the columns in the same way wherever
    they stand.
-/
import FuzzyPath.Alignment.Solve
import FuzzyPath.Proofs.Alignment.Embedding
import FuzzyPath.Proofs.Text.Offsets

namespace FuzzyPath

/-! ## Units -/

/-- The unit moved `bytes` bytes to the right. -/
def TextUnit.shift (u : TextUnit) (bytes : Nat) : TextUnit := { u with offset := u.offset + bytes }

namespace TextMode

theorem decodeChars_add (bytes : Nat) : ∀ (cs : List Char) (base : Nat),
    decodeChars (base + bytes) [] cs = (decodeChars base [] cs).map (·.shift bytes)
  | [], _ => rfl
  | c :: cs, base => by
    have hnext : base + bytes + c.utf8Size = base + c.utf8Size + bytes := by omega
    rw [decodeChars_cons, decodeChars_cons, hnext, decodeChars_add bytes cs, List.map_cons]
    rfl

theorem decodeBytes_add (bytes : Nat) (text : List UInt8) (base : Nat) :
    decodeBytes (base + bytes) text = (decodeBytes base text).map (·.shift bytes) := by
  refine List.ext_getElem? fun i => ?_
  rw [decodeBytes, decodeBytes, List.getElem?_mapIdx, List.getElem?_map, List.getElem?_mapIdx,
    Option.map_map]
  have hoffset : base + bytes + i = base + i + bytes := by omega
  rw [hoffset]
  rfl

/-- The units of a text that stands further right are the same units there. -/
theorem decode_add (mode : TextMode) (text : String) (base bytes : Nat) :
    mode.decode text (base + bytes) = (mode.decode text base).map (·.shift bytes) := by
  cases mode with
  | bytes => exact decodeBytes_add bytes _ base
  | unicode => exact decodeChars_add bytes _ base

end TextMode

namespace Alignment

/-! ## Problems -/

/-- The column moved `bytes` bytes to the right. -/
def Column.shift (c : Column) (bytes : Nat) : Column := { c with unit := c.unit.shift bytes }

/-- The same query beside columns that stand further right. -/
def Problem.shift (p : Problem) (bytes : Nat) : Problem :=
  { p with columns := p.columns.map (·.shift bytes) }

variable (p : Problem) (bytes : Nat)

theorem accepts_shift (columns : List Column) :
    List.Forall₂ (fun c c' => ∀ q, (p.shift bytes).accepts q c = p.accepts q c')
      (columns.map (·.shift bytes)) columns := by
  rw [List.forall₂_map_left_iff]
  exact List.forall₂_same.2 fun _ _ _ => rfl

theorem toList_columns_shift :
    (p.shift bytes).columns.toList = p.columns.toList.map (·.shift bytes) := Array.toList_map

/-! ## The table -/

theorem firstRow_shift (q : TextUnit) (last : Nat) : ∀ (columns : List Column) (j : Nat)
    (done : List Cell), firstRow (p.shift bytes) q last j done (columns.map (·.shift bytes)) =
      firstRow p q last j done columns
  | [], _, _ => rfl
  | c :: columns, j, done => by
    have haccepts : (p.shift bytes).accepts q (c.shift bytes) = p.accepts q c := rfl
    have hprice : (p.shift bytes).matchPrice q (c.shift bytes) = p.matchPrice q c := rfl
    simp only [List.map_cons, firstRow, haccepts, hprice, firstRow_shift q last columns]

theorem sweep_shift (q : TextUnit) (first last : Nat) : ∀ (columns : List Column) (row : List Cell)
    (gap : Gap) (before : Int) (j : Nat) (done : List Cell),
    sweep (p.shift bytes) q first last gap before j done (columns.map (·.shift bytes)) row =
      sweep p q first last gap before j done columns row
  | [], _, _, _, _, _ => by simp only [List.map_nil, sweep]
  | _ :: _, [], _, _, _, _ => by simp only [List.map_cons, sweep]
  | c :: columns, above :: row, gap, before, j, done => by
    have haccepts : (p.shift bytes).accepts q (c.shift bytes) = p.accepts q c := rfl
    have hcell : cellAt (p.shift bytes) q gap before j (c.shift bytes) =
        cellAt p q gap before j c := rfl
    have hgap : gap.skip (p.shift bytes).prices before (j - 1) (c.shift bytes) =
        gap.skip p.prices before (j - 1) c := rfl
    simp only [List.map_cons, sweep, haccepts, hcell, hgap, sweep_shift q first last columns row]

theorem rowsBelow_shift (origin : Nat) (columns : List Column) :
    ∀ (units : List (TextUnit × Nat × Nat)) (row : List Cell) (above : List (List Cell)),
      rowsBelow (p.shift bytes) origin (columns.map (·.shift bytes)) row above units =
        rowsBelow p origin columns row above units
  | [], _, _ => rfl
  | (q, first, last) :: units, row, above => by
    simp only [rowsBelow, sweep_shift, rowsBelow_shift origin columns units]

theorem best_shift (first last : List Nat) :
    best (p.shift bytes) first last = best p first last := by
  have hcolumns (start stop : Nat) : ((p.shift bytes).columns.extract start stop).toList =
      (p.columns.extract start stop).toList.map (·.shift bytes) := by
    rw [Array.toList_extract, toList_columns_shift, Array.toList_extract, List.extract_eq_take_drop,
      List.extract_eq_take_drop, List.map_take, List.map_drop]
  have hquery : (p.shift bytes).query = p.query := rfl
  simp only [best, hquery, hcolumns, firstRow_shift, rowsBelow_shift]

/-! ## Paths -/

theorem stepPrice_shift (total : Int) (i j : Nat) :
    stepPrice (p.shift bytes) total i j = stepPrice p total i j := by
  have hcrosses : ((p.shift bytes).columns.extract (i + 1) j).any (·.isSeparator) =
      (p.columns.extract (i + 1) j).any (·.isSeparator) := by
    rw [Problem.shift, ← Array.map_extract, Array.any_map]
    rfl
  have hprices : (p.shift bytes).prices = p.prices := rfl
  simp only [stepPrice, hcrosses, hprices]

theorem priceFrom_shift : ∀ (query : List TextUnit) (path : List Nat) (total : Int)
    (prev : Option Nat),
    priceFrom (p.shift bytes) total prev query path = priceFrom p total prev query path
  | [], _, _, _ => by simp only [priceFrom]
  | _ :: _, [], _, _ => by simp only [priceFrom]
  | q :: query, j :: path, total, prev => by
    have hsize : (p.shift bytes).columns.size = p.columns.size := Array.size_map
    have hcolumn : (p.shift bytes).columns[j]? = p.columns[j]?.map (·.shift bytes) :=
      Array.getElem?_map
    simp only [priceFrom, hcolumn, hsize]
    cases p.columns[j]? with
    | none => rfl
    | some c =>
      have hprice : (p.shift bytes).matchPrice q (c.shift bytes) = p.matchPrice q c := rfl
      simp only [Option.map_some, hprice, stepPrice_shift, priceFrom_shift query path]

theorem greedy_shift (first : List Nat) : greedy (p.shift bytes) first = greedy p first := by
  have hpath : greedyPath (p.shift bytes) first = greedyPath p first := by
    rw [greedyPath, greedyPath, toList_columns_shift, ← List.map_take]
    exact congrArg (·.getD first) (latest_congr (accepts_shift p bytes _) p.query)
  have hprice (path : List Nat) : price (p.shift bytes) path = price p path :=
    priceFrom_shift p bytes p.query path 0 none
  rw [greedy, greedy, hpath, hprice]

/-! ## Solutions -/

/-- A query is aligned in the same way wherever the columns stand. -/
theorem solve_shift : solve (p.shift bytes) = solve p := by
  have hsize : (p.shift bytes).columns.size = p.columns.size := Array.size_map
  have hquery : (p.shift bytes).query = p.query := rfl
  have hfirst : earliest (p.shift bytes).accepts p.query (p.shift bytes).columns.toList =
      earliest p.accepts p.query p.columns.toList := by
    rw [toList_columns_shift]
    exact earliest_congr (accepts_shift p bytes _) p.query
  have hlast : latest (p.shift bytes).accepts p.query (p.shift bytes).columns.toList =
      latest p.accepts p.query p.columns.toList := by
    rw [toList_columns_shift]
    exact latest_congr (accepts_shift p bytes _) p.query
  simp only [solve, hsize, hquery, hfirst, hlast, greedy_shift, best_shift]

end Alignment

end FuzzyPath
