/-
  FuzzyPath — what the filled table holds.

  * `readBack` is what is left of an alignment whose columns are stored in 32 bits
    each: the alignment itself, as long as they fit (`readBack_eq_self_iff`);
  * `Filled` relates the last row filled so far to the trails of the units up
    to it: a reached cell has the worth of a trail that the table reads back, no
    trail is worth more than its cell, and of the trails of that worth this one is
    the greatest, compared from its end;
  * `Filled.first` and `Filled.next` are the steps, `rowsBelow_spec` the run;
  * `bestEnd_spec` says which cell of the last row is chosen.
-/
import FuzzyPath.Proofs.Alignment.Rows

namespace FuzzyPath.Alignment

/-- The score of the column `j` in a row that begins at `origin`. -/
def rowScore (origin : Nat) (row : List Cell) (j : Nat) : Int :=
  if j < origin then unreached else ((row[j - origin]?).map Cell.score).getD unreached

theorem rowScore_of_getElem? {origin t : Nat} {row : List Cell} {cell : Cell}
    (h : row[t]? = some cell) : rowScore origin row (origin + t) = cell.score := by
  simp [rowScore, h]

theorem exists_of_lt_rowScore {origin j : Nat} {row : List Cell}
    (h : unreached < rowScore origin row j) :
    ∃ (t : Nat) (cell : Cell), j = origin + t ∧ row[t]? = some cell ∧
      rowScore origin row j = cell.score := by
  rw [rowScore] at h ⊢
  split at h
  · exact absurd h (lt_irrefl _)
  · rename_i hj
    cases hcell : row[j - origin]? with
    | none => rw [hcell] at h; exact absurd h (lt_irrefl _)
    | some cell => exact ⟨j - origin, cell, by omega, hcell, by simp [hj]⟩

variable {p : Problem} {origin : Nat} {columns : List Column}

/-- `columns` are the columns of the problem from `origin` on. -/
def Window (p : Problem) (origin : Nat) (columns : List Column) : Prop :=
  ∀ (t : Nat) (c : Column), columns[t]? = some c → p.columns[origin + t]? = some c

/-- The bounds of a unit lie on the columns of the table. -/
def Inside (origin : Nat) (columns : List Column) (u : BoundedUnit) : Prop :=
  ∀ j, u.Bounds j → origin ≤ j ∧ j < origin + columns.length

/-! ## What is read back -/

/-- The columns `path`, last first, as they are read back from a table whose cells
    store them in 32 bits each; `passed` are those after them.  A column that does
    not fit is taken for one before the table, where there is nothing to be read. -/
def readBackFrom (passed : List Nat) : List Nat → Except Fault (List Nat)
  | [] => .ok passed
  | [k] => .ok (k.toUInt32.toNat :: passed)
  | k :: i :: path =>
    if k < 2 ^ 32 then readBackFrom (k :: passed) (i :: path) else .error .subtractionOverflow

/-- An alignment as it is read back: its last column is not stored. -/
def readBack (path : List Nat) : Except Fault (List Nat) :=
  match path.reverse with
  | [] => .ok []
  | j :: path => readBackFrom [j] path

theorem toNat_toUInt32_of_lt {k : Nat} (h : k < 2 ^ 32) : k.toUInt32.toNat = k :=
  UInt32.toNat_ofNat_of_lt' h

theorem readBackFrom_cons_of_lt {k : Nat} (h : k < 2 ^ 32) (passed path : List Nat) :
    readBackFrom passed (k :: path) = readBackFrom (k :: passed) path := by
  cases path with
  | nil => rw [readBackFrom, readBackFrom, toNat_toUInt32_of_lt h]
  | cons _ _ => rw [readBackFrom, if_pos h]

theorem readBackFrom_eq_ok_iff : ∀ path passed : List Nat,
    readBackFrom passed path = .ok (path.reverse ++ passed) ↔ ∀ k ∈ path, k < 2 ^ 32
  | [], passed => iff_of_true rfl (by simp)
  | [k], passed => by
    rw [readBackFrom, List.forall_mem_singleton]
    constructor
    · intro h
      have hback : k.toUInt32.toNat = k := (List.cons.inj (Except.ok.inj h)).1
      exact hback ▸ UInt32.toNat_lt _
    · intro h
      rw [toNat_toUInt32_of_lt h]
      rfl
  | k :: i :: path, passed => by
    rw [readBackFrom, List.forall_mem_cons, List.reverse_cons, List.append_assoc,
      List.singleton_append]
    by_cases hk : k < 2 ^ 32
    · rw [if_pos hk, readBackFrom_eq_ok_iff (i :: path) (k :: passed), and_iff_right hk]
    · rw [if_neg hk]
      exact iff_of_false (by rintro ⟨⟩) fun h => hk h.1

/-- An alignment is read back as it is exactly if all its columns but the last fit. -/
theorem readBack_eq_self_iff (path : List Nat) :
    readBack path = .ok path ↔ ∀ k ∈ path.dropLast, k < 2 ^ 32 := by
  rcases List.eq_nil_or_concat path with rfl | ⟨front, j, rfl⟩
  · exact iff_of_true rfl (by simp)
  · rw [List.concat_eq_append, readBack, List.reverse_concat, List.dropLast_concat]
    have hfront := readBackFrom_eq_ok_iff front.reverse [j]
    simpa using hfront

/-! ## Filled rows -/

/-- Compared from the front, the first number that differs is less. -/
def AtMost (path' path : List Nat) : Prop := path' = path ∨ List.Lex (· < ·) path' path

/-- The last row filled for `units`, with the rows to be traced back, both last
    first. -/
structure Filled (p : Problem) (origin : Nat) (columns : List Column) (units : List BoundedUnit)
    (row : List Cell) (rows : List (List Cell)) : Prop where
  length : row.length = columns.length
  height : rows.length + 1 = units.length
  empty : ∀ (t : Nat) (cell : Cell), row[t]? = some cell → cell.score ≤ unreached →
    cell = Cell.empty
  sound : ∀ (t : Nat) (cell : Cell), row[t]? = some cell → unreached < cell.score →
    ∃ path, Trail p units ((origin + t) :: path) cell.score ∧
      (∀ wide height acc below, trace origin wide height acc below (origin + t) rows =
        readBackFrom ((origin + t) :: acc) path) ∧
      ∀ path', Trail p units ((origin + t) :: path') cell.score → AtMost path' path
  complete : ∀ j path v, Trail p units (j :: path) v →
    ∃ (t : Nat) (cell : Cell), j = origin + t ∧ row[t]? = some cell ∧ v ≤ cell.score

namespace Trail
variable {units : List BoundedUnit} {path : List Nat} {v : Int}

theorem unreached_lt (hp : p.Moderate) (h : Trail p units path v) : unreached < v := by
  have hmem : ∀ {j : Nat} {c : Column}, p.columns[j]? = some c → c ∈ p.columns.toList :=
    fun hc => List.mem_of_getElem? (by rwa [Array.getElem?_toList])
  cases h with
  | @start u j c _ hc _ =>
    have := hp.gain_nonneg u.1 (hmem hc)
    simp only [unreached]; omega
  | @next u units j k path v c _ _ _ hc _ hv =>
    have := hp.gain_nonneg u.1 (hmem hc)
    omega

theorem le_scoreCap (hp : p.Moderate) (h : Trail p units path v) (hshort : units.length ≤ 1024) :
    v ≤ scoreCap := by
  have hworth := hp.worth_le (BoundedUnit.query units) path.reverse
  rw [h.worth_eq, List.length_reverse, ← h.length_eq] at hworth
  simp only [scoreCap]; omega

end Trail

namespace Filled
variable {units : List BoundedUnit} {row : List Cell} {rows : List (List Cell)}

theorem le_scoreCap (hp : p.Moderate) (h : Filled p origin columns units row rows)
    (hshort : units.length ≤ 1024) (j : Nat) : rowScore origin row j ≤ scoreCap := by
  by_cases hj : unreached < rowScore origin row j
  · obtain ⟨t, cell, rfl, hcell, hscore⟩ := exists_of_lt_rowScore hj
    rw [hscore] at hj ⊢
    obtain ⟨path, htrail, -⟩ := h.sound t cell hcell hj
    exact htrail.le_scoreCap hp hshort
  · simp only [unreached, scoreCap] at hj ⊢; omega

/-- The first row, for the first unit. -/
theorem first (hp : p.Moderate) (hwin : Window p origin columns) {u : BoundedUnit}
    (hu : Inside origin columns u) (hlow : u.2.1 = origin) :
    Filled p origin columns [u]
      (columns.mapIdx fun t c => firstCell p u.1 u.2.2 (origin + t) c) [] := by
  have hget : ∀ (t : Nat) (cell : Cell),
      (columns.mapIdx fun t c => firstCell p u.1 u.2.2 (origin + t) c)[t]? = some cell →
      ∃ c, columns[t]? = some c ∧ cell = firstCell p u.1 u.2.2 (origin + t) c := by
    intro t cell hcell
    rw [List.getElem?_mapIdx] at hcell
    obtain ⟨c, hc, rfl⟩ := Option.map_eq_some_iff.1 hcell
    exact ⟨c, hc, rfl⟩
  refine ⟨by simp, rfl, ?_, ?_, ?_⟩
  · intro t cell hcell hscore
    obtain ⟨c, hc, rfl⟩ := hget t cell hcell
    have hgain := hp.gain_nonneg u.1
      (List.mem_of_getElem? (by rw [Array.getElem?_toList]; exact hwin t c hc))
    rw [firstCell] at hscore ⊢
    split at hscore
    · simp only [unreached] at hscore; omega
    · rename_i hout; rw [if_neg hout]
  · intro t cell hcell hscore
    obtain ⟨c, hc, rfl⟩ := hget t cell hcell
    rw [firstCell] at hscore ⊢
    split at hscore
    · rename_i hin
      rw [if_pos hin]
      refine ⟨[], .start ⟨by omega, hin.1⟩ (hwin t c hc) hin.2, fun _ _ _ _ => rfl, ?_⟩
      intro path' h
      have hlen := h.length_eq
      obtain rfl : path' = [] := by simpa using hlen
      exact Or.inl rfl
    · exact absurd hscore (lt_irrefl _)
  · intro j path v h
    cases h with
    | @start u j c hb hc hq =>
      obtain ⟨hge, hlt⟩ := hu j hb
      obtain ⟨t, rfl⟩ := Nat.exists_eq_add_of_le hge
      have ht : t < columns.length := by omega
      obtain rfl : c = columns[t] := by
        have := hwin t columns[t] (List.getElem?_eq_getElem ht)
        rw [hc] at this; exact Option.some.inj this
      refine ⟨t, firstCell p u.1 u.2.2 (origin + t) columns[t], rfl, ?_, ?_⟩
      · rw [List.getElem?_mapIdx, List.getElem?_eq_getElem ht]; rfl
      · rw [firstCell, if_pos ⟨hb.2, hq⟩]
    | next h => cases h

/-- What is read from a cell that stores the column `k`, if `rows` are left and the
    trail goes on with `path`. -/
theorem trace_stored {path : List Nat} {k i wide height : Nat} {acc : List Nat}
    {below : List Cell} (hnarrow : columns.length ≤ 2 ^ 32) (hrows : rows.length = path.length)
    (hk : k = origin + i) (hi : i < columns.length)
    (htrace : trace origin wide height acc below k rows = readBackFrom (k :: acc) path) :
    trace origin wide height acc below k.toUInt32.toNat rows = readBackFrom acc (k :: path) := by
  by_cases hfits : k < 2 ^ 32
  · rw [toNat_toUInt32_of_lt hfits, htrace, readBackFrom_cons_of_lt hfits]
  · match rows, path, hrows with
    | [], [], _ => rw [trace, readBackFrom]
    | _ :: _, _ :: _, _ =>
      have hbefore : k.toUInt32.toNat < origin := by
        rw [Nat.toUInt32_eq, UInt32.toNat_ofNat']
        omega
      rw [trace, if_pos hbefore, readBackFrom, if_neg hfits]

/-- The row of one more unit, its cells being filled from the row above. -/
theorem next (hp : p.Moderate) (hnarrow : columns.length ≤ 2 ^ 32) (hne : units ≠ [])
    (h : Filled p origin columns units row rows) {u : BoundedUnit}
    (hu : Inside origin columns u) {cells : List Cell} (hlen : cells.length = columns.length)
    (hcells : ∀ (t : Nat) (cell : Cell), cells[t]? = some cell →
      ∃ k, CellHolds p (rowScore origin row) u (origin + t) cell k) :
    Filled p origin columns (u :: units) cells (cells :: rows) := by
  -- A trail to the row above is among what its cell offers.
  have hoffer : ∀ {k path v j}, Trail p units (k :: path) v → k < j → unreached < v + p.step k j →
      ∃ w, offersTo p (rowScore origin row) j j k w ∧ v + p.step k j ≤ w := by
    intro k path v j htrail hkj hv
    obtain ⟨t, cell, rfl, hcell, hle⟩ := h.complete k path v htrail
    have hscore : rowScore origin row (origin + t) = cell.score := rowScore_of_getElem? hcell
    have hlow := htrail.unreached_lt hp
    exact ⟨_, ⟨hkj, by omega, rfl⟩, by omega⟩
  refine ⟨hlen, by rw [List.length_cons, List.length_cons, h.height],
    fun t cell hcell => (hcells t cell hcell).elim fun _ hholds => hholds.empty, ?_, ?_⟩
  · intro t cell hcell hscore
    obtain ⟨back, hholds⟩ := hcells t cell hcell
    obtain ⟨c, w, hc, hq, hb, ⟨hback, habove, rfl⟩, hw, hsum⟩ := hholds.reached hscore
    obtain ⟨i, cell', hi, hcell', hrow⟩ := exists_of_lt_rowScore habove
    rw [hrow] at habove hw hsum
    obtain ⟨path, htrail, htrace, hgreatest⟩ := h.sound i cell' hcell' habove
    rw [← hi] at htrail htrace hgreatest
    refine ⟨back :: path, hsum ▸ .next htrail hback hb hc hq hw, ?_, ?_⟩
    · intro wide height acc below
      have hget : (cells ++ below)[origin + t - origin]? = some cell := by
        rw [Nat.add_sub_cancel_left, List.getElem?_append_left (List.getElem?_eq_some_iff.1 hcell).1,
          hcell]
      have hrows : rows.length = path.length := by
        have hcount := htrail.length_eq
        rw [← h.height, List.length_cons] at hcount
        exact Nat.succ.inj hcount
      have hlt : i < columns.length := h.length ▸ (List.getElem?_eq_some_iff.1 hcell').1
      rw [trace, if_neg (by omega), hget]
      dsimp only
      rw [hholds.stored]
      exact trace_stored hnarrow hrows hi hlt (htrace wide height _ _)
    · intro path' htrail'
      generalize hv' : cell.score = v' at htrail'
      cases htrail' with
      | start => cases htrail
      | @next _ _ _ k path' v c' hprev hkj _ hc' hq' hv =>
        obtain rfl : c = c' := by rw [hc] at hc'; exact Option.some.inj hc'
        obtain ⟨w', hw', hle⟩ := hoffer hprev hkj hv
        obtain ⟨-, hstrict⟩ := hholds.best c k w' hc hq hb hw' (by omega)
        rcases Nat.lt_trichotomy k back with hlt | rfl | hgt
        · exact Or.inr (.rel hlt)
        · obtain rfl : v = cell'.score := by omega
          exact (hgreatest path' hprev).imp (congrArg _) .cons
        · have := hstrict hgt; omega
  · intro j path v htrail
    cases htrail with
    | start => exact absurd rfl hne
    | @next _ _ _ k path v c hprev hkj hb hc hq hv =>
      obtain ⟨hge, hlt⟩ := hu j hb
      obtain ⟨t, rfl⟩ := Nat.exists_eq_add_of_le hge
      have ht : t < cells.length := by omega
      refine ⟨t, cells[t], rfl, List.getElem?_eq_getElem ht, ?_⟩
      obtain ⟨w, hw, hle⟩ := hoffer hprev hkj hv
      obtain ⟨_, hholds⟩ := hcells t _ (List.getElem?_eq_getElem ht)
      have := (hholds.best c k w hc hq hb hw (by omega)).1
      omega

end Filled

/-! ## Runs -/

theorem rowScore_of_lt {j : Nat} {row : List Cell} (h : j < origin) :
    rowScore origin row j = unreached := if_pos h

theorem rowsBelow_spec (hp : p.Moderate) (hwin : Window p origin columns)
    (hnarrow : columns.length ≤ 2 ^ 32) :
    ∀ (rest units : List BoundedUnit) (row : List Cell) (above : List (List Cell)),
      units ≠ [] → units.length + rest.length ≤ 1024 → (∀ u ∈ rest, Inside origin columns u) →
      Filled p origin columns units row (row :: above).dropLast →
      ∃ row' above', rowsBelow p origin columns row above rest = .ok (row', above') ∧
        above'.length = above.length + rest.length ∧
        Filled p origin columns (rest.reverse ++ units) row' (row' :: above').dropLast := by
  intro rest
  induction rest with
  | nil => intro units row above _ _ _ h; exact ⟨row, above, rfl, rfl, h⟩
  | cons u rest ih =>
    intro units row above hne hshort hin h
    rw [List.length_cons] at hshort
    have hbefore : scoreBefore (rowScore origin row) origin = unreached := by
      cases origin with
      | zero => rfl
      | succ k => exact rowScore_of_lt (Nat.lt_succ_self k)
    obtain ⟨cells, hsweep, hlen, hcells⟩ := sweep_spec hp
      (h.le_scoreCap hp (by omega)) u columns row origin Gap.none _ [] h.length.symm hwin
      (fun t cell hcell => (rowScore_of_getElem? hcell).symm)
      (isBest_none _ _ fun k hk => (rowScore_of_lt (by omega)).le)
    have hnext := h.next hp hnarrow hne (hin u (List.mem_cons_self ..)) hlen hcells
    obtain ⟨row', above', hrows, hcount, hfilled⟩ := ih (u :: units) cells (row :: above) (by simp)
      (by rw [List.length_cons]; omega) (fun u' hu' => hin u' (List.mem_cons_of_mem _ hu'))
      (by simpa using hnext)
    refine ⟨row', above', ?_, by simp at hcount ⊢; omega, by simpa using hfilled⟩
    rw [hbefore] at hsweep
    obtain ⟨q, first, last⟩ := u
    simp only [rowsBelow]
    simp only [List.reverse_nil, List.nil_append] at hsweep
    rw [hsweep]
    exact hrows

/-- The cell chosen in a row is the first of the best ones between two columns,
    if any of them is better than the score to begin with. -/
theorem bestEnd_spec (first last : Nat) : ∀ (row : List Cell) (j : Nat) (score : Int) (stop : Nat),
    let found := bestEnd first last score stop j row
    (found = (score, stop) ∨ ∃ (t : Nat) (cell : Cell), row[t]? = some cell ∧
      found = (cell.score, j + t) ∧ score < cell.score) ∧
    ∀ (t : Nat) (cell : Cell), row[t]? = some cell → first ≤ j + t → j + t ≤ last →
      cell.score ≤ found.1 ∧ (score < found.1 → j + t < found.2 → cell.score < found.1) := by
  intro row
  induction row with
  | nil => intro j score stop; simp [bestEnd]
  | cons cell₀ row ih =>
    intro j score stop
    simp only [bestEnd]
    split
    · rename_i hin
      obtain ⟨hfound, hbest⟩ := ih (j + 1) cell₀.score j
      generalize bestEnd first last cell₀.score j (j + 1) row = found at hfound hbest ⊢
      refine ⟨Or.inr ?_, ?_⟩
      · rcases hfound with rfl | ⟨t, cell, hcell, rfl, hlt⟩
        · exact ⟨0, cell₀, rfl, rfl, hin.2.2⟩
        · exact ⟨t + 1, cell, hcell, by rw [Nat.add_assoc, Nat.add_comm 1 t], hin.2.2.trans hlt⟩
      · rintro (_ | t) cell hcell hfirst hlast
        · obtain rfl : cell₀ = cell := by simpa using hcell
          rcases hfound with rfl | ⟨t, cell, -, rfl, hlt⟩
          · exact ⟨le_rfl, fun _ h => absurd h (lt_irrefl _)⟩
          · exact ⟨hlt.le, fun _ _ => hlt⟩
        · obtain ⟨hle, hstrict⟩ := hbest t cell hcell (by omega) (by omega)
          refine ⟨hle, fun _ hend => ?_⟩
          rcases hfound with rfl | ⟨i, cell', -, rfl, hlt⟩
          · simp only at hend; omega
          · exact hstrict hlt (by simp only at hend ⊢; omega)
    · rename_i hout
      obtain ⟨hfound, hbest⟩ := ih (j + 1) score stop
      generalize bestEnd first last score stop (j + 1) row = found at hfound hbest ⊢
      have hscore : score ≤ found.1 := by
        rcases hfound with rfl | ⟨t, cell, -, rfl, hlt⟩
        · exact le_rfl
        · exact hlt.le
      refine ⟨hfound.imp id ?_, ?_⟩
      · rintro ⟨t, cell, hcell, rfl, hlt⟩
        exact ⟨t + 1, cell, hcell, by rw [Nat.add_assoc, Nat.add_comm 1 t], hlt⟩
      · rintro (_ | t) cell hcell hfirst hlast
        · obtain rfl : cell₀ = cell := by simpa using hcell
          have hle : cell₀.score ≤ score := not_lt.1 fun hlt => hout ⟨hfirst, hlast, hlt⟩
          exact ⟨hle.trans hscore, fun hlt _ => hle.trans_lt hlt⟩
        · obtain ⟨hle, hstrict⟩ := hbest t cell hcell (by omega) (by omega)
          exact ⟨hle, fun hlt hend => hstrict hlt (by omega)⟩

end FuzzyPath.Alignment
