/-
  FuzzyPath — the scans leave room for all alignments and for no more.

  The earliest and the latest columns of the query units are found from opposite
  ends.  They are alignments themselves, and every other lies between them, unit
  by unit; so the table need not go beyond them.

  * `Problem.TightBounds` are such bounds; `tightBounds_of_scans`: the scans find
    them;
  * `TightBounds.between`: no alignment uses a column beyond the outermost two;
  * `rowsInside_of_tightBounds`: nothing that is done with the rows of the table
    leaves it;
  * `scans_bracket`: the scans, the bounds and the table together.
-/
import FuzzyPath.Proofs.Alignment.Buffers
import FuzzyPath.Proofs.Alignment.Inside
import FuzzyPath.Proofs.Alignment.Tightest

namespace FuzzyPath.Alignment

open Grid

variable {p : Problem} {first last : List Nat} {origin lowest stop : Nat}

/-! ## Bounds -/

/-- Of all alignments, `first` is the one on the left of each other and `last` the
    one on the right. -/
structure Problem.TightBounds (p : Problem) (first last : List Nat) : Prop where
  first_aligns : p.IsAlignment first
  last_aligns : p.IsAlignment last
  first_le {path : List Nat} : p.IsAlignment path → List.Forall₂ (· ≤ ·) first path
  le_last {path : List Nat} : p.IsAlignment path → List.Forall₂ (· ≤ ·) path last

theorem tightBounds_of_scans (hfirst : earliest p.accepts p.query p.columns.toList = some first)
    (hlast : latest p.accepts p.query p.columns.toList = some last) :
    p.TightBounds first last where
  first_aligns := earliest_embeds _ hfirst
  last_aligns := latest_embeds hlast
  first_le hpath := by
    obtain ⟨first', hfirst', hle⟩ := earliest_least _ hpath
    obtain rfl := Option.some.inj (hfirst.symm.trans hfirst')
    exact hle
  le_last hpath := by
    obtain ⟨last', hlast', hle⟩ := latest_greatest hpath
    obtain rfl := Option.some.inj (hlast.symm.trans hlast')
    exact hle

/-- The columns of an alignment stand in order. -/
theorem getElem_le_of_increasing {path : List Nat} (hinc : path.Pairwise (· < ·)) {i k : Nat}
    (hik : i ≤ k) (hk : k < path.length) : path[i] ≤ path[k] := by
  obtain rfl | hlt := Nat.eq_or_lt_of_le hik
  · exact Nat.le_refl _
  · exact Nat.le_of_lt (List.pairwise_iff_getElem.1 hinc i k (by omega) hk hlt)

namespace Problem.TightBounds
variable (h : p.TightBounds first last)
include h

theorem length_first : first.length = p.query.length := h.first_aligns.length_eq.symm

theorem length_last : last.length = p.query.length := h.last_aligns.length_eq.symm

/-- No alignment uses a column before the first or after the last one. -/
theorem between {path : List Nat} (hpath : p.IsAlignment path) (horigin : first[0]? = some origin)
    (hstop : last[p.query.length - 1]? = some stop) : ∀ j ∈ path, origin ≤ j ∧ j ≤ stop := by
  intro j hj
  obtain ⟨i, hi, rfl⟩ := List.getElem_of_mem hj
  obtain ⟨hzero, rfl⟩ := List.getElem?_eq_some_iff.1 horigin
  obtain ⟨hend, rfl⟩ := List.getElem?_eq_some_iff.1 hstop
  have hlen := hpath.length_eq
  constructor
  · calc first[0] ≤ path[0] := (h.first_le hpath).get hzero (by omega)
      _ ≤ path[i] := getElem_le_of_increasing hpath.increasing (Nat.zero_le i) hi
  · calc path[i] ≤ path[p.query.length - 1] :=
          getElem_le_of_increasing hpath.increasing (by omega) (by omega)
      _ ≤ last[p.query.length - 1] := (h.le_last hpath).get (by omega) hend

end Problem.TightBounds

/-! ## Rows -/

/-- Nothing that is done with the rows of the table leaves it, which has a row for
    each query unit and goes from the column `origin` to the column `stop`: if
    each cell is checked, they are filled all the same, and in the last one, from
    the column `lowest` on, the best cell is found. -/
structure Problem.RowsInside (p : Problem) (first last : List Nat) (origin lowest stop : Nat) :
    Prop where
  filled : fillTableWithin p first.toArray last.toArray (stop - origin + 1) =
    fillTable p first.toArray last.toArray (stop - origin + 1)
  settled : Settles
    (fun g => g.Fits p.query.length (stop - origin + 1) origin ∧
      bestInWithin p.query.length g (p.query.length - 1) unreached lowest lowest
          (stop + 1 - lowest) =
        bestIn g (p.query.length - 1) unreached lowest lowest (stop + 1 - lowest) ∧
      ∃ best, bestIn g (p.query.length - 1) unreached lowest lowest (stop + 1 - lowest) = .ok best)
    (fillTable p first.toArray last.toArray (stop - origin + 1))

theorem rowsInside_of_tightBounds (h : p.TightBounds first last) (hquery : p.query ≠ [])
    (horigin : first[0]? = some origin) (hlowest : first[p.query.length - 1]? = some lowest)
    (hstop : last[p.query.length - 1]? = some stop) :
    p.RowsInside first last origin lowest stop := by
  have hfirsts := h.between h.first_aligns horigin hstop
  have hlasts := h.between h.last_aligns horigin hstop
  have hlow := hfirsts lowest (List.mem_of_getElem? hlowest)
  have hcolumns : stop < p.columns.size := by
    rw [← Array.length_toList]
    exact h.last_aligns.lt_length (List.mem_of_getElem? hstop)
  have hroom : origin + (stop - origin + 1) ≤ p.columns.size := by omega
  have hinside : ∀ j, origin ≤ j ∧ j ≤ stop → origin ≤ j ∧ j < origin + (stop - origin + 1) :=
    fun j hj => by omega
  have hheight : 0 < p.query.length := List.length_pos_iff.2 hquery
  obtain ⟨hfilled, hsettles⟩ := fillTable_inside hroom hquery horigin
    (fun j hj => hinside j (hfirsts j hj)) (fun j hj => hinside j (hlasts j hj))
    h.length_first h.length_last
  refine ⟨hfilled, ?_⟩
  cases hfill : fillTable p first.toArray last.toArray (stop - origin + 1) with
  | error fault =>
    rw [hfill] at hsettles
    exact hsettles
  | ok g =>
    rw [hfill] at hsettles
    exact ⟨hsettles, bestIn_inside hsettles (by omega) hlow.1 (by omega)⟩

/-! ## The scans -/

/-- The scan from the front puts each unit on a column exactly if there is an
    alignment.  Then the scan from the end does so too; what they find are
    alignments, and every alignment lies between them, unit by unit, and so on
    the columns of the table, which are as many as there are from the first
    column found to the last.  Nothing that is done with its rows leaves it. -/
theorem scans_bracket (p : Problem) (hquery : p.query ≠ []) :
    ∃ front whole, scanFront p #[] 0 p.query p.columns.toList = (front, whole) ∧
      (whole = true ↔ ∃ path, p.IsAlignment path) ∧
      (whole = true → ∃ first last, front = first.toArray ∧
        scanBack p (.replicate p.query.length 0) p.columns.size p.query.reverse =
          .ok (last.toArray, true) ∧
        p.TightBounds first last ∧
        ∃ origin lowest stop, first[0]? = some origin ∧
          first[p.query.length - 1]? = some lowest ∧ last[p.query.length - 1]? = some stop ∧
          (∀ path, p.IsAlignment path → ∀ j ∈ path, origin ≤ j ∧ j < origin + (stop - origin + 1)) ∧
          p.RowsInside first last origin lowest stop) := by
  obtain ⟨front, hfront, hfound⟩ := scanFront_eq (p := p)
  obtain ⟨back, hback, hfound'⟩ := scanBack_eq (p := p)
  refine ⟨front, _, hfront, ?_, fun hwhole => ?_⟩
  · constructor
    · intro hwhole
      obtain ⟨first, hfirst⟩ := Option.isSome_iff_exists.1 hwhole
      exact ⟨first, earliest_embeds _ hfirst⟩
    · rintro ⟨path, hpath⟩
      obtain ⟨first, hfirst, -⟩ := earliest_least _ hpath
      rw [hfirst]
      rfl
  · obtain ⟨first, hfirst⟩ := Option.isSome_iff_exists.1 hwhole
    obtain ⟨last, hlast, -⟩ := latest_greatest (earliest_embeds _ hfirst)
    have hbounds := tightBounds_of_scans hfirst hlast
    have hpos := List.length_pos_iff.2 hquery
    obtain ⟨origin, horigin⟩ : ∃ origin, first[0]? = some origin :=
      ⟨_, List.getElem?_eq_getElem (hbounds.length_first ▸ hpos)⟩
    obtain ⟨lowest, hlowest⟩ : ∃ lowest, first[p.query.length - 1]? = some lowest :=
      ⟨_, List.getElem?_eq_getElem (by rw [hbounds.length_first]; omega)⟩
    obtain ⟨stop, hstop⟩ : ∃ stop, last[p.query.length - 1]? = some stop :=
      ⟨_, List.getElem?_eq_getElem (by rw [hbounds.length_last]; omega)⟩
    refine ⟨first, last, hfound first hfirst, ?_, hbounds, origin, lowest, stop, horigin, hlowest,
      hstop, fun path hpath j hj => ?_,
      rowsInside_of_tightBounds hbounds hquery horigin hlowest hstop⟩
    · rw [hback, hlast, hfound' last hlast]
      rfl
    · have := hbounds.between hpath horigin hstop j hj
      omega

theorem scans_bracket_aab : problemAab.query ≠ [] ∧
    scanFront problemAab #[] 0 problemAab.query problemAab.columns.toList =
      (#[0, 1, 4], true) ∧
    scanBack problemAab (.replicate problemAab.query.length 0) problemAab.columns.size
      problemAab.query.reverse = .ok (#[1, 3, 4], true) ∧
    problemAab.TightBounds [0, 1, 4] [1, 3, 4] ∧
    problemAab.RowsInside [0, 1, 4] [1, 3, 4] 0 4 4 := by
  have hquery : problemAab.query ≠ [] := by decide
  have hfront : scanFront problemAab #[] 0 problemAab.query problemAab.columns.toList =
      (#[0, 1, 4], true) := by decide
  have hback : scanBack problemAab (.replicate problemAab.query.length 0) problemAab.columns.size
      problemAab.query.reverse = .ok (#[1, 3, 4], true) := by decide
  obtain ⟨front, whole, hscan, -, hbounds⟩ := scans_bracket problemAab hquery
  obtain ⟨rfl, rfl⟩ := Prod.mk.inj (hfront.symm.trans hscan)
  obtain ⟨first, last, hfirst, hlast, htight, origin, lowest, stop, horigin, hlowest, hstop, -,
    hrows⟩ := hbounds rfl
  obtain rfl : [0, 1, 4] = first := congrArg Array.toList hfirst
  obtain rfl : [1, 3, 4] = last :=
    congrArg Array.toList (Prod.mk.inj (Except.ok.inj (hback.symm.trans hlast))).1
  obtain rfl := Option.some.inj horigin
  obtain rfl := Option.some.inj hlowest
  obtain rfl := Option.some.inj hstop
  exact ⟨hquery, hfront, hback, htight, hrows⟩

end FuzzyPath.Alignment
