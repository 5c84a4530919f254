/-
  FuzzyPath — the best alignment, by a table.

  The table has a row for each query unit and a cell for each column between
  the first and the last that an alignment can use.  A cell holds the score of
  the best alignment of the query up to its row that ends on its column, and
  the column before that.  A row is filled from the one above it in one sweep:
  beside a match directly before, it needs only the best of all alignments
  that leave a gap, which the sweep carries along (`Gap`).

  Scores at or below `unreached` count as no alignment at all.  The columns are
  stored in 32 bits, and one that does not fit is followed to another one.

  * `Gap.skip` takes the open gap one column further;
  * `cellAt` fills one cell, `sweep` one row and `rowsBelow` all rows below
    the first;
  * `bestEnd` finds the best cell of the last row and `trace` follows the table
    back from there;
  * `best` is the result: the score and the column of each query unit.
-/
import FuzzyPath.Alignment.Bounds

namespace FuzzyPath.Alignment

/-- The score that stands for no alignment. -/
def unreached : Int := -1073741824

/-- The column that stands for no column. -/
def noColumn : UInt32 := 4294967295

/-- A cell of the table. -/
structure Cell where
  /-- The score of the best alignment that ends here. -/
  score : Int
  /-- The column of the query unit before. -/
  back : UInt32
  deriving DecidableEq, Repr

/-- A cell on which no alignment ends. -/
def Cell.empty : Cell := ⟨unreached, noColumn⟩

/-- The best alignment of the query units above that leaves a gap before the
    column at hand. -/
structure Gap where
  score : Int
  /-- The column from which the gap was entered. -/
  source : UInt32
  deriving DecidableEq, Repr

/-- No alignment leaves a gap. -/
def Gap.none : Gap := ⟨unreached, noColumn⟩

/-- The gap before the column after `c`: the one before `c` made longer, or a
    new one entered from the column `k` before `c`, where the alignments above
    score `before`.  Of two gaps of one score the new one is taken.  A separator
    that is skipped costs extra. -/
def Gap.skip (prices : Prices) (gap : Gap) (before : Int) (k : Nat) (c : Column) : Gap :=
  let opened := if unreached < before then saturate32 (before - prices.gapOpen) else unreached
  let extended :=
    if unreached < gap.score then saturate32 (gap.score - prices.gapExtend) else unreached
  let next : Gap :=
    if unreached < opened ∧ extended ≤ opened then ⟨opened, k.toUInt32⟩
    else ⟨extended, gap.source⟩
  if c.isSeparator ∧ unreached < next.score then
    ⟨saturate32 (next.score - prices.componentGap), next.source⟩
  else next

/-- The cell of the query unit `q` on the column `c` with number `j`, on which
    it matches: it follows the match on the column before, where the
    alignments above score `before`, or else the gap.  Of two of one score the
    match directly before is taken. -/
def cellAt (p : Problem) (q : TextUnit) (gap : Gap) (before : Int) (j : Nat) (c : Column) :
    Except Fault Cell :=
  let run :=
    if unreached < before then saturate32 (before + p.prices.consecutive) else unreached
  let best : Gap := if gap.score ≤ run then ⟨run, (j - 1).toUInt32⟩ else gap
  if best.score ≤ unreached then .ok Cell.empty
  else do
    let price ← p.matchPrice q c
    return ⟨saturate32 (best.score + price), best.source⟩

/-- Fills a row from the row above it.  The query unit `q` can lie on the
    columns from `first` to `last`.  `j` is the number of the next column,
    `before` the score above the column before it, and `done` holds the cells
    filled so far, last first. -/
def sweep (p : Problem) (q : TextUnit) (first last : Nat) (gap : Gap) (before : Int) (j : Nat)
    (done : List Cell) : List Column → List Cell → Except Fault (List Cell)
  | c :: columns, above :: row =>
    match (if first ≤ j ∧ j ≤ last ∧ p.accepts q c then cellAt p q gap before j c
      else .ok Cell.empty) with
    | .error fault => .error fault
    | .ok cell =>
      sweep p q first last (gap.skip p.prices before (j - 1) c) above.score (j + 1)
        (cell :: done) columns row
  | _, _ => .ok done.reverse

/-- The first row: a match of the first query unit needs nothing before it. -/
def firstRow (p : Problem) (q : TextUnit) (last : Nat) (j : Nat) (done : List Cell) :
    List Column → Except Fault (List Cell)
  | [] => .ok done.reverse
  | c :: columns =>
    match (if j ≤ last ∧ p.accepts q c then
        (p.matchPrice q c).map fun price => (⟨price, noColumn⟩ : Cell)
      else .ok Cell.empty) with
    | .error fault => .error fault
    | .ok cell => firstRow p q last (j + 1) (cell :: done) columns

/-- The rows of the query units `units`, each given with its bounds, below the
    row `row`.  The result is the last row and the rows above it, last first;
    `above` are those above `row`. -/
def rowsBelow (p : Problem) (origin : Nat) (columns : List Column) (row : List Cell)
    (above : List (List Cell)) :
    List (TextUnit × Nat × Nat) → Except Fault (List Cell × List (List Cell))
  | [] => .ok (row, above)
  | (q, first, last) :: units =>
    match sweep p q first last Gap.none unreached origin [] columns row with
    | .error fault => .error fault
    | .ok next => rowsBelow p origin columns next (row :: above) units

/-- The best cell of a row between the columns `first` and `last`, as a score
    and a column; of two of one score the first.  If there is none, it is
    `unreached` on the column `stop`. -/
def bestEnd (first last : Nat) (score : Int) (stop : Nat) (j : Nat) : List Cell → Int × Nat
  | [] => (score, stop)
  | cell :: row =>
    if first ≤ j ∧ j ≤ last ∧ score < cell.score then bestEnd first last cell.score j (j + 1) row
    else bestEnd first last score stop (j + 1) row

/-- Follows the table back from the column `j` of the last of `rows`, which are
    all but the first, last row first.  `path` are the columns passed so far, and
    `below` the cells of the rows below: they stand behind those of the row, and
    a column beyond its end leads to them. -/
def trace (origin width height : Nat) (path : List Nat) (below : List Cell) (j : Nat) :
    List (List Cell) → Except Fault (List Nat)
  | [] => .ok (j :: path)
  | row :: rows =>
    if j < origin then .error .subtractionOverflow
    else match (row ++ below)[j - origin]? with
      | some cell => trace origin width height (j :: path) (row ++ below) cell.back.toNat rows
      | none =>
        .error (.indexOutOfRange ((rows.length + 1) * width + (j - origin)) (height * width))

/-- The best alignment of the query; `first` and `last` are the bounds of its
    units. -/
def best (p : Problem) (first last : List Nat) : Except Fault Solution :=
  match p.query, first, last with
  | q :: query, origin :: firsts, stop :: lasts => do
    let wide := width first last
    let columns := (p.columns.extract origin (origin + wide)).toList
    let row ← firstRow p q stop origin [] columns
    let (row, above) ← rowsBelow p origin columns row [] (query.zip (firsts.zip lasts))
    let lowest := first.getLastD origin
    let (score, j) := bestEnd lowest (last.getLastD stop) unreached lowest origin row
    let path ← trace origin wide p.query.length [] [] j ((row :: above).dropLast)
    return ⟨score, path⟩
  | _, _, _ => .ok ⟨0, []⟩

end FuzzyPath.Alignment
