/-
  FuzzyPath — aligning in memory that is used again.

  Whoever aligns many candidates keeps the bounds, the table and the path in
  the same arrays and fills them anew for each candidate.  The table is one
  array of scores and one of columns, row after row.  A scan that fails leaves
  the arrays after it as the candidate before has left them.

  * `fetch` and `store` read and write an element of an array;
  * `scanFront` and `scanBack` find the bounds of the query units;
  * `Grid` is the table: `fillTable` fills it, row by row, `bestIn` finds the best
    cell of a row, and `traceIn` follows the table back from it;
  * `alignIn` aligns a query in `Buffers`.
-/
import FuzzyPath.Alignment.Solve

namespace FuzzyPath

/-- The element of an array at `i`. -/
def fetch {α : Type} (xs : Array α) (i : Nat) : Except Fault α :=
  match xs[i]? with
  | some x => .ok x
  | none => .error (.indexOutOfRange i xs.size)

/-- An array with another element at `i`. -/
def store {α : Type} (xs : Array α) (i : Nat) (x : α) : Except Fault (Array α) :=
  if h : i < xs.size then .ok (xs.set i x h) else .error (.indexOutOfRange i xs.size)

namespace Alignment

/-- What is kept from one alignment to the next. -/
structure Buffers where
  /-- The earliest column of each query unit. -/
  first : Array Nat
  /-- The latest column of each query unit. -/
  last : Array Nat
  /-- The scores of the cells, row after row. -/
  table : Array Int
  /-- For each cell, the column of the query unit before. -/
  back : Array UInt32
  /-- The column of each query unit. -/
  path : Array Nat

/-- The buffers before the first alignment. -/
def Buffers.empty : Buffers := ⟨#[], #[], #[], #[], #[]⟩

/-! ## Bounds -/

/-- Puts each query unit on the first matching column after that of the unit
    before it, and says whether there was one for each.  `j` is the number of the
    next column. -/
def scanFront (p : Problem) (first : Array Nat) (j : Nat) :
    List TextUnit → List Column → Array Nat × Bool
  | [], _ => (first, true)
  | _ :: _, [] => (first, false)
  | q :: query, c :: columns =>
    if p.accepts q c then scanFront p (first.push j) (j + 1) query columns
    else scanFront p first (j + 1) (q :: query) columns

/-- The last number below `stop` that passes a test. -/
def lastBelow (test : Nat → Bool) : Nat → Option Nat
  | 0 => none
  | k + 1 => if test k then some k else lastBelow test k

/-- Whether there is a column `k` that accepts `q`. -/
def Problem.acceptsAt (p : Problem) (q : TextUnit) (k : Nat) : Bool :=
  p.columns[k]?.any (p.accepts q)

/-- Puts each query unit on the last matching column before that of the unit
    after it, and says whether there was one for each.  The units are given last
    first, and all columns used are before `stop`. -/
def scanBack (p : Problem) (last : Array Nat) (stop : Nat) :
    List TextUnit → Except Fault (Array Nat × Bool)
  | [] => .ok (last, true)
  | q :: query =>
    match lastBelow (p.acceptsAt q) stop with
    | none => .ok (last, false)
    | some k => do scanBack p (← store last query.length k) k query

/-! ## The table -/

/-- A table in two arrays; each row has `wide` cells, for the columns from
    `origin` on. -/
structure Grid where
  wide : Nat
  origin : Nat
  table : Array Int
  back : Array UInt32

namespace Grid

/-- The table of `height` rows on whose cells no alignment ends. -/
def blank (height wide origin : Nat) : Grid :=
  ⟨wide, origin, .replicate (height * wide) unreached, .replicate (height * wide) noColumn⟩

/-- Where the cell of the row `i` on the column `j` stands.  There is no place for
    a column before the table. -/
def place (g : Grid) (i j : Nat) : Except Fault Nat :=
  if j < g.origin then .error .subtractionOverflow else .ok (i * g.wide + (j - g.origin))

def score (g : Grid) (i j : Nat) : Except Fault Int := do fetch g.table (← g.place i j)

/-- The column of the query unit before, as the cell stores it. -/
def previous (g : Grid) (i j : Nat) : Except Fault UInt32 := do fetch g.back (← g.place i j)

/-- The table with another score in a cell. -/
def putScore (g : Grid) (i j : Nat) (score : Int) : Except Fault Grid := do
  return { g with table := ← store g.table (← g.place i j) score }

/-- The table with another cell. -/
def put (g : Grid) (i j : Nat) (cell : Cell) : Except Fault Grid := do
  let g ← g.putScore i j cell.score
  return { g with back := ← store g.back (← g.place i j) cell.back }

end Grid

/-- Fills `count` cells of the first row, from the column `j` on. -/
def fillFirst (p : Problem) (q : TextUnit) (g : Grid) (j : Nat) : Nat → Except Fault Grid
  | 0 => .ok g
  | count + 1 => do
    let c ← fetch p.columns j
    if p.accepts q c then
      fillFirst p q (← g.putScore 0 j (← p.matchPrice q c)) (j + 1) count
    else fillFirst p q g (j + 1) count

/-- The better of the match on the column before `j`, where the alignments above
    score `before`, and of the gap. -/
def entry (p : Problem) (gap : Gap) (before : Int) (j : Nat) : Gap :=
  let run :=
    if unreached < before then saturate32 (before + p.prices.consecutive) else unreached
  if gap.score ≤ run then ⟨run, (j - 1).toUInt32⟩ else gap

/-- The gap before the column `j` of the row `i`, from the one before the column
    before it.  The query unit above can lie on the columns from `lowest` on, so
    that a gap is open from the second column after that. -/
def gapAt (p : Problem) (i lowest : Nat) (g : Grid) (gap : Gap) (j : Nat) : Except Fault Gap :=
  if lowest + 2 ≤ j then do
    let above ← g.score (i - 1) (j - 2)
    return gap.skip p.prices above (j - 2) (← fetch p.columns (j - 1))
  else .ok gap

/-- Fills the cell of the row `i` on the column `j`, where the query unit `q` can
    lie on the columns from `first` on. -/
def fillCell (p : Problem) (q : TextUnit) (i first : Nat) (g : Grid) (gap : Gap) (j : Nat) :
    Except Fault Grid := do
  let c ← fetch p.columns j
  if j < first ∨ p.accepts q c = false then return g
  else
    let best := entry p gap (← g.score (i - 1) (j - 1)) j
    if best.score ≤ unreached then return g
    else g.put i j ⟨saturate32 (best.score + (← p.matchPrice q c)), best.source⟩

/-- Fills `count` cells of the row `i` from the row above it, from the column `j`
    on.  The query unit `q` can lie on the columns from `first` on, and the one
    above on those from `lowest` on. -/
def fillRow (p : Problem) (q : TextUnit) (i lowest first : Nat) (g : Grid) (gap : Gap) (j : Nat) :
    Nat → Except Fault Grid
  | 0 => .ok g
  | count + 1 => do
    let gap ← gapAt p i lowest g gap j
    let g ← fillCell p q i first g gap j
    fillRow p q i lowest first g gap (j + 1) count

/-- Fills the rows of the query units `query`, the first of which is `i`. -/
def fillRows (p : Problem) (first last : Array Nat) (i : Nat) (g : Grid) :
    List TextUnit → Except Fault Grid
  | [] => .ok g
  | q :: query => do
    let lowest ← fetch first (i - 1)
    let g ← fillRow p q i lowest (← fetch first i) g Gap.none (lowest + 1)
      ((← fetch last i) - lowest)
    fillRows p first last (i + 1) g query

/-- The best of `count` cells of the row `i`, from the column `j` on, as a score
    and a column; of two of one score the first.  If none is better than `score`,
    it is `score` on the column `stop`. -/
def bestIn (g : Grid) (i : Nat) (score : Int) (stop j : Nat) : Nat → Except Fault (Int × Nat)
  | 0 => .ok (score, stop)
  | count + 1 => do
    let value ← g.score i j
    if score < value then bestIn g i value j (j + 1) count
    else bestIn g i score stop (j + 1) count

/-- Follows the table back from the column `j` of the last of `count` rows. -/
def traceIn (g : Grid) (path : Array Nat) (j : Nat) : Nat → Except Fault (Array Nat)
  | 0 => .ok path
  | i + 1 => do
    let path ← store path i j
    if i = 0 then return path
    else traceIn g path (← g.previous i j).toNat i

/-! ## Alignments -/

/-- The table for the bounds `first` and `last`, whose rows have `wide` cells. -/
def fillTable (p : Problem) (first last : Array Nat) (wide : Nat) : Except Fault Grid := do
  let origin ← fetch first 0
  let g := Grid.blank p.query.length wide origin
  let g ← fillFirst p (← fetch p.query.toArray 0) g origin ((← fetch last 0) + 1 - origin)
  fillRows p first last 1 g p.query.tail

/-- The best alignment, by a table whose rows have `wide` cells. -/
def alignTable (p : Problem) (b : Buffers) (wide : Nat) : Except Fault (Int × Buffers) := do
  let height := p.query.length
  let g ← fillTable p b.first b.last wide
  let lowest ← fetch b.first (height - 1)
  let (score, stop) ← bestIn g (height - 1) unreached lowest lowest
    ((← fetch b.last (height - 1)) + 1 - lowest)
  let path ← traceIn g (.replicate height 0) stop height
  return (score, { b with table := g.table, back := g.back, path })

/-- Puts each query unit on the last matching column before that of the unit
    after it, or on its earliest one if there is none.  The units are given last
    first. -/
def tighten (p : Problem) (first path : Array Nat) (stop : Nat) :
    List TextUnit → Except Fault (Array Nat)
  | [] => .ok path
  | q :: query => do
    let k ← match lastBelow (p.acceptsAt q) stop with
      | some k => pure k
      | none => fetch first query.length
    tighten p first (← store path query.length k) k query

/-- The alignment that ends first and is then as tight as can be. -/
def alignGreedy (p : Problem) (b : Buffers) : Except Fault (Int × Buffers) := do
  let height := p.query.length
  let final ← fetch b.first (height - 1)
  let path ← tighten p b.first (.replicate height 0) (final + 1) p.query.reverse
  return (← price p path.toList, { b with path })

/-- Aligns a query of which the bounds have been found. -/
def alignBounded (p : Problem) (b : Buffers) : Except Fault (Int × Buffers) := do
  let height := p.query.length
  let wide := (← fetch b.last (height - 1)) - (← fetch b.first 0) + 1
  if height * wide > maxCells then alignGreedy p b else alignTable p b wide

/-- Aligns a query and leaves the alignment in the path; the result is its score,
    or `none` if there is no alignment. -/
def alignIn (p : Problem) (b : Buffers) : Except Fault (Option Int × Buffers) :=
  let height := p.query.length
  if p.columns.size < height then .ok (none, b)
  else
    let (first, whole) := scanFront p #[] 0 p.query p.columns.toList
    let b := { b with first }
    if whole = false then .ok (none, b)
    else do
      let (last, whole) ← scanBack p (.replicate height 0) p.columns.size p.query.reverse
      let b := { b with last }
      if whole = false then return (none, b)
      else
        let (score, b) ← alignBounded p b
        return (some score, b)

end Alignment

end FuzzyPath
