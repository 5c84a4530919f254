/-
  FuzzyPath — an alignment in buffers is the alignment.

  * `alignTable_of_best` and `alignGreedy_of_greedy`: the two ways to align leave
    in the path what they find, whatever the buffers held;
  * `alignIn_of_solve`: so does the whole;
  * `alignIn_congr`: also where it fails, nothing but the path is left of what the
    buffers held.
-/
import FuzzyPath.Proofs.Alignment.Grid
import FuzzyPath.Proofs.Alignment.Outcome

namespace FuzzyPath.Alignment

open Grid

variable {p : Problem} {first last : List Nat}

/-- The bounds of a unit are in order, and they lie on the columns of the table. -/
theorem Scanned.bounds_of_getElem? (h : Scanned p first last) {t : Nat} {u : BoundedUnit}
    (hu : (boundedUnits p first last)[t]? = some u) :
    first[t]? = some u.2.1 ∧ last[t]? = some u.2.2 ∧ u.2.1 ≤ u.2.2 ∧
      u.2.2 < first.headD 0 + width first last := by
  obtain ⟨-, hpair⟩ := List.getElem?_zip_eq_some.1 hu
  obtain ⟨hfirst, hlast⟩ := List.getElem?_zip_eq_some.1 hpair
  have hle : u.2.1 ≤ u.2.2 := by
    obtain ⟨hi, hget⟩ := List.getElem?_eq_some_iff.1 hfirst
    obtain ⟨hi', hget'⟩ := List.getElem?_eq_some_iff.1 hlast
    have := (h.first_le h.embeds_last).get hi hi'
    simpa only [List.get_eq_getElem, hget, hget'] using this
  have hin := h.inside (List.mem_of_getElem? hu) u.2.2 ⟨hle, Nat.le_refl _⟩
  rw [h.length_window] at hin
  exact ⟨hfirst, hlast, hle, hin.2⟩

/-- The last of the bounds is that of the last unit. -/
theorem fetch_getLastD {a n : Nat} {l : List Nat} (hn : l.length = n) :
    fetch (a :: l).toArray n = .ok (l.getLastD a) := by
  refine fetch_toArray ?_
  have hlast : (a :: l).getLast? = (a :: l)[(a :: l).length - 1]? := List.getLast?_eq_getElem?
  rw [List.length_cons, Nat.add_sub_cancel, hn, List.getLast?_cons, ← List.getLastD_eq_getLast?]
    at hlast
  exact hlast.symm

/-! ## By the table -/

section
variable {height wide origin lowest final : Nat} {row : List Cell} {above : List (List Cell)}
  (hrows : ∀ cells ∈ row :: above, cells.length = wide) (hheight : above.length + 1 = height)
include hrows hheight

/-- The best cell is looked for in the last row. -/
theorem bestIn_of_bestEnd (hlow : origin ≤ lowest) (hle : lowest ≤ final)
    (hfinal : final < origin + wide) :
    bestIn (laid height wide origin (row :: above).reverse.flatten) (height - 1) unreached lowest
      lowest (final + 1 - lowest) =
        .ok (bestEnd lowest final unreached lowest origin row) := by
  obtain ⟨hrow, habove⟩ := List.forall_mem_cons.1 hrows
  have hbefore : above.reverse.flatten.length = (height - 1) * wide := by
    rw [length_flatten_rows (by simpa using habove), List.length_reverse, ← hheight,
      Nat.add_sub_cancel]
  rw [flatten_reverse_cons, bestEnd_of_le _ _ hlow (by omega)]
  exact bestIn_eq_bestEnd hbefore (by omega) (Nat.le_refl _) hlow (by omega)

/-- It is traced back through all rows but the first. -/
theorem traceIn_of_rows {j : Nat} {path : List Nat}
    (h : trace origin wide height [] [] j (row :: above).dropLast = .ok path) :
    traceIn (laid height wide origin (row :: above).reverse.flatten) (.replicate height 0) j
      height = .ok path.toArray := by
  obtain ⟨rows, base, heq⟩ : ∃ rows base, row :: above = rows ++ [base] :=
    ⟨_, _, (List.dropLast_append_getLast (List.cons_ne_nil row above)).symm⟩
  obtain rfl : rows.length + 1 = height := by
    have hlen := congrArg List.length heq
    simp only [List.length_cons, List.length_append, List.length_nil] at hlen
    omega
  rw [heq] at hrows h ⊢
  rw [List.dropLast_concat] at h
  obtain ⟨hrows', hbase⟩ := List.forall_mem_append.1 hrows
  have hzeros : (.replicate (rows.length + 1) 0 : Array Nat) =
      (List.replicate (rows.length + 1) 0 ++ []).toArray := by simp
  have hcells : (rows ++ [base]).reverse.flatten = (base :: rows.reverse).flatten ++ [] := by simp
  rw [hzeros, hcells]
  exact traceIn_of_trace (hbase base (List.mem_singleton_self _)) h hrows'

end

section
variable {origin stop : Nat} {firsts lasts : List Nat} {q : TextUnit} {query : List TextUnit}
  (h : Scanned p (origin :: firsts) (stop :: lasts)) (hquery : p.query = q :: query)
include h hquery

theorem Scanned.length_firsts : firsts.length = query.length := by
  have hcount := h.length_first
  rwa [hquery, List.length_cons, List.length_cons, Nat.add_right_cancel_iff] at hcount

theorem Scanned.length_lasts : lasts.length = query.length := by
  have hcount := h.length_last
  rwa [hquery, List.length_cons, List.length_cons, Nat.add_right_cancel_iff] at hcount

/-- The table is filled row by row. -/
theorem fillTable_of_rowsBelow {wide : Nat}
    (hwide : width (origin :: firsts) (stop :: lasts) = wide)
    {row₀ row : List Cell} {above : List (List Cell)}
    (hrow₀ : firstRow p q stop origin [] (p.columns.extract origin (origin + wide)).toList =
      .ok row₀)
    (hrows : rowsBelow p origin (p.columns.extract origin (origin + wide)).toList row₀ []
      (query.zip (firsts.zip lasts)) = .ok (row, above)) :
    fillTable p (origin :: firsts).toArray (stop :: lasts).toArray wide =
        .ok (laid p.query.length wide origin (row :: above).reverse.flatten) ∧
      (∀ cells ∈ row :: above, cells.length = wide) ∧ above.length + 1 = p.query.length := by
  have hwin := window_extract p origin (origin + wide)
  have hlen := h.length_window
  have hunits (t : Nat) (u : BoundedUnit)
      (hu : ((q, origin, stop) :: query.zip (firsts.zip lasts))[t]? = some u) :
      (origin :: firsts)[t]? = some u.2.1 ∧ (stop :: lasts)[t]? = some u.2.2 ∧ u.2.1 ≤ u.2.2 ∧
        u.2.2 < origin + wide := by
    rw [← hwide]
    refine h.bounds_of_getElem? ?_
    rwa [boundedUnits, hquery, List.zip_cons_cons, List.zip_cons_cons]
  rw [List.headD_cons, hwide] at hlen
  generalize (p.columns.extract origin (origin + wide)).toList = columns at *
  have hcount : (query.zip (firsts.zip lasts)).length = query.length := by
    rw [List.length_zip, List.length_zip, h.length_firsts hquery, h.length_lasts hquery,
      Nat.min_self, Nat.min_self]
  -- The first row is that of the first unit; the other units are those of the rows below.
  obtain ⟨-, -, hle, hstop⟩ := hunits 0 _ rfl
  dsimp only at hle hstop
  have hfirst : fillFirst p q (laid p.query.length wide origin []) origin (stop + 1 - origin) =
      .ok (laid p.query.length wide origin row₀) :=
    fillFirst_of_firstRow hrow₀ hwin (Nat.le_refl _) (by simp) (by omega) (by omega)
      (by rw [hlen, hquery, List.length_cons, Nat.succ_mul]; simp)
  have hcells : ∀ cells ∈ [row₀], cells.length = wide := by
    simpa [length_of_firstRow hrow₀] using hlen
  have hbelow (t : Nat) (u : BoundedUnit) (hu : (query.zip (firsts.zip lasts))[t]? = some u) :
      (origin :: firsts)[0 + 1 + t]? = some u.2.1 ∧ (stop :: lasts)[0 + 1 + t]? = some u.2.2 ∧
        u.2.1 ≤ u.2.2 ∧ u.2.2 < origin + wide := by
    rw [Nat.zero_add, Nat.add_comm 1 t]
    exact hunits (t + 1) u hu
  have hroom : ([] : List (List Cell)).length + 1 + (query.zip (firsts.zip lasts)).length ≤
      p.query.length := by
    rw [hcount, hquery, List.length_nil, List.length_cons]
    omega
  obtain ⟨hrest, hrows', hheight⟩ := fillRows_of_rowsBelow h.embeds_first.increasing hwin hlen hrows
    hcells hbelow rfl (Nat.le_refl _) (fun t cell _ hlt => by omega) hroom
  refine ⟨?_, hrows', by rw [hheight, hcount, hquery, List.length_nil, List.length_cons]; omega⟩
  rw [List.map_fst_zip (by rw [← hcount, List.length_zip]; omega), List.reverse_singleton,
    List.flatten_singleton, List.length_nil, Nat.zero_add] at hrest
  have horigin : fetch (origin :: firsts).toArray 0 = .ok origin := fetch_toArray rfl
  have hend : fetch (stop :: lasts).toArray 0 = .ok stop := fetch_toArray rfl
  have hq : fetch p.query.toArray 0 = .ok q := fetch_toArray (by rw [hquery]; rfl)
  have htail : p.query.tail = query := by rw [hquery, List.tail_cons]
  rw [fillTable, horigin, hend, hq, htail]
  simp only [bind, Except.bind, blank_eq_laid, hfirst, hrest]

end

/-- The table is filled and read as it is row by row. -/
theorem alignTable_of_best (h : Scanned p first last) {sol : Solution}
    (hsol : best p first last = .ok sol) {b : Buffers} (hfirst : b.first = first.toArray)
    (hlast : b.last = last.toArray) :
    ∃ b', alignTable p b (width first last) = .ok (sol.score, b') ∧
      b'.path = sol.path.toArray := by
  obtain ⟨q, query, hquery⟩ := List.exists_cons_of_ne_nil h.nonempty
  obtain ⟨origin, firsts, rfl⟩ : ∃ origin firsts, first = origin :: firsts :=
    List.exists_cons_of_length_eq_add_one (by rw [h.length_first, hquery, List.length_cons])
  obtain ⟨stop, lasts, rfl⟩ : ∃ stop lasts, last = stop :: lasts :=
    List.exists_cons_of_length_eq_add_one (by rw [h.length_last, hquery, List.length_cons])
  have horigin : origin ≤ firsts.getLastD origin :=
    Nat.le_of_add_right_le (add_length_le_getLastD h.embeds_first.increasing)
  have hlowest : firsts.getLastD origin ≤ lasts.getLastD stop := by
    simpa only [List.getLastD_cons] using
      forall₂_getLastD (Nat.le_refl 0) (h.first_le h.embeds_last)
  have hfinal : lasts.getLastD stop < origin + width (origin :: firsts) (stop :: lasts) := by
    rw [width, List.getLastD_cons, List.headD_cons]
    omega
  simp only [best, hquery] at hsol
  obtain ⟨row₀, hrow₀, hsol⟩ := bind_eq_ok hsol
  obtain ⟨⟨row, above⟩, hrows, hsol⟩ := bind_eq_ok hsol
  obtain ⟨path, hpath, hsol⟩ := bind_eq_ok hsol
  obtain rfl := Except.ok.inj hsol
  obtain ⟨htable, hrows', hheight⟩ := fillTable_of_rowsBelow h hquery rfl hrow₀ hrows
  rw [List.getLastD_cons, List.getLastD_cons, ← hquery] at hpath
  have hbest := bestIn_of_bestEnd hrows' hheight horigin hlowest hfinal
  have htrace := traceIn_of_rows hrows' hheight hpath
  have hlow : fetch (origin :: firsts).toArray (p.query.length - 1) =
      .ok (firsts.getLastD origin) :=
    fetch_getLastD (by rw [h.length_firsts hquery, hquery, List.length_cons, Nat.add_sub_cancel])
  have hhigh : fetch (stop :: lasts).toArray (p.query.length - 1) = .ok (lasts.getLastD stop) :=
    fetch_getLastD (by rw [h.length_lasts hquery, hquery, List.length_cons, Nat.add_sub_cancel])
  rw [alignTable, hfirst, hlast, htable]
  simp only [bind, Except.bind, hlow, hhigh, hbest, htrace, pure, Except.pure, List.getLastD_cons]
  exact ⟨_, rfl, rfl⟩

/-! ## Greedily -/

theorem alignGreedy_of_greedy (hquery : p.query ≠ [])
    (hearliest : earliest p.accepts p.query p.columns.toList = some first) {sol : Solution}
    (hsol : greedy p first = .ok sol) {b : Buffers} (hfirst : b.first = first.toArray) :
    ∃ b', alignGreedy p b = .ok (sol.score, b') ∧ b'.path = sol.path.toArray := by
  have hemb := earliest_embeds _ hearliest
  obtain ⟨hpath, hprice⟩ := price_of_greedy hsol
  obtain ⟨a, l, rfl⟩ := List.exists_cons_of_ne_nil
    (List.length_pos_iff.1 (hemb.length_eq ▸ List.length_pos_iff.2 hquery))
  have hfinal : fetch (a :: l).toArray (p.query.length - 1) = .ok (l.getLastD a) :=
    fetch_getLastD (by rw [hemb.length_eq, List.length_cons, Nat.add_sub_cancel])
  have hlatest := latest_take_eq hearliest
  rw [List.getLastD_cons, ← hpath, ← p.query.reverse_reverse] at hlatest
  have hinside : l.getLastD a + 1 ≤ p.columns.size := by
    rw [← Array.length_toList]
    exact hemb.lt_length List.getLastD_mem_cons
  have htight := tighten_of_latest (a :: l).toArray hinside hlatest []
  rw [List.length_reverse, List.append_nil, List.append_nil] at htight
  have hzeros : (.replicate p.query.length 0 : Array Nat) =
      (List.replicate p.query.length 0).toArray := by simp
  rw [alignGreedy, hfirst, hfinal, hzeros]
  simp only [bind, Except.bind, htight, hprice, pure, Except.pure]
  exact ⟨_, rfl, rfl⟩

/-! ## The whole -/

/-- The scans say whether there is an alignment. -/
theorem scanFront_eq : ∃ scanned, scanFront p #[] 0 p.query p.columns.toList =
      (scanned, (earliest p.accepts p.query p.columns.toList).isSome) ∧
    ∀ first, earliest p.accepts p.query p.columns.toList = some first →
      scanned = first.toArray := by
  cases h : earliest p.accepts p.query p.columns.toList with
  | none => exact ⟨_, Prod.ext rfl (scanFront_of_none h), fun first hfirst => by cases hfirst⟩
  | some first =>
    refine ⟨first.toArray, scanFront_of_some h, fun first' hfirst => ?_⟩
    rw [Option.some.inj hfirst]

theorem scanBack_eq : ∃ scanned,
    scanBack p (.replicate p.query.length 0) p.columns.size p.query.reverse =
      .ok (scanned, (latest p.accepts p.query p.columns.toList).isSome) ∧
    ∀ last, latest p.accepts p.query p.columns.toList = some last → scanned = last.toArray := by
  have hzeros : (.replicate p.query.length 0 : Array Nat) =
      (List.replicate p.query.reverse.length 0 ++ []).toArray := by simp
  have hall : p.columns.toList.take p.columns.size = p.columns.toList := by
    rw [← Array.length_toList, List.take_length]
  rw [hzeros]
  cases h : latest p.accepts p.query p.columns.toList with
  | none =>
    rw [← hall, ← p.query.reverse_reverse] at h
    obtain ⟨scanned, hscan⟩ := scanBack_of_none (Nat.le_refl _) h []
    exact ⟨scanned, hscan, fun last hlast => by cases hlast⟩
  | some last =>
    rw [← hall, ← p.query.reverse_reverse] at h
    refine ⟨(last ++ []).toArray, scanBack_of_some (Nat.le_refl _) h [], fun last' hlast => ?_⟩
    rw [List.append_nil, Option.some.inj hlast]

/-- With the bounds in the buffers, the alignment found is the one of `solve`. -/
theorem alignBounded_of_solve (hquery : p.query ≠ [])
    (hearliest : earliest p.accepts p.query p.columns.toList = some first)
    (hlatest : latest p.accepts p.query p.columns.toList = some last) {sol : Solution}
    (hsol : solve p = .ok (some sol)) {b : Buffers} (hfirst : b.first = first.toArray)
    (hlast : b.last = last.toArray) :
    ∃ b', alignBounded p b = .ok (sol.score, b') ∧ b'.path = sol.path.toArray := by
  have hcount := (earliest_embeds _ hearliest).length_eq
  have hcount' := (latest_embeds hlatest).length_eq
  have hpos := List.length_pos_iff.2 hquery
  obtain ⟨a, firsts, rfl⟩ := List.exists_cons_of_ne_nil (List.length_pos_iff.1 (hcount ▸ hpos))
  obtain ⟨z, lasts, rfl⟩ := List.exists_cons_of_ne_nil (List.length_pos_iff.1 (hcount' ▸ hpos))
  have hlow : fetch (a :: firsts).toArray 0 = .ok a := fetch_toArray rfl
  have hhigh : fetch (z :: lasts).toArray (p.query.length - 1) = .ok (lasts.getLastD z) :=
    fetch_getLastD (by rw [hcount', List.length_cons, Nat.add_sub_cancel])
  have hwide : lasts.getLastD z - a + 1 = width (a :: firsts) (z :: lasts) := by
    rw [width, List.getLastD_cons, List.headD_cons]
  rw [alignBounded, hfirst, hlast]
  simp only [bind, Except.bind, hlow, hhigh, hwide]
  by_cases hcells : p.query.length * width (a :: firsts) (z :: lasts) > maxCells
  · rw [solve_of_greedy hearliest hlatest hcells] at hsol
    obtain ⟨sol', hgreedy, hsome⟩ := map_eq_ok hsol
    obtain rfl := Option.some.inj hsome
    rw [if_pos hcells]
    exact alignGreedy_of_greedy hquery hearliest hgreedy hfirst
  · have hscan : Scanned p (a :: firsts) (z :: lasts) :=
      ⟨hquery, hearliest, hlatest, Nat.not_lt.1 hcells⟩
    rw [hscan.solve_eq] at hsol
    obtain ⟨sol', hbest, hsome⟩ := map_eq_ok hsol
    obtain rfl := Option.some.inj hsome
    rw [if_neg hcells]
    exact alignTable_of_best hscan hbest hfirst hlast

/-- The buffers hold the alignment afterwards, whatever they held before; if there is
    none, the path is what it was. -/
theorem alignIn_of_solve (hquery : p.query ≠ []) {result : Option Solution}
    (h : solve p = .ok result) (b : Buffers) :
    ∃ b', alignIn p b = .ok (result.map Solution.score, b') ∧
      b'.path = (result.map fun sol => sol.path.toArray).getD b.path := by
  obtain ⟨front, hfront, hfirst⟩ := scanFront_eq (p := p)
  obtain ⟨back, hback, hlast⟩ := scanBack_eq (p := p)
  rw [alignIn, hfront, hback]
  by_cases hshort : p.columns.size < p.query.length
  · rw [solve, if_pos hshort] at h
    rw [if_pos hshort, ← Except.ok.inj h]
    exact ⟨b, rfl, rfl⟩
  · rw [if_neg hshort]
    cases result with
    | none =>
      have hno : ¬ ∃ path, p.IsAlignment path := solve_eq_none_iff.1 h
      cases hearliest : earliest p.accepts p.query p.columns.toList with
      | none => exact ⟨_, rfl, rfl⟩
      | some first => exact absurd ⟨first, earliest_embeds _ hearliest⟩ hno
    | some sol =>
      obtain ⟨first, last, hearliest, hlatest⟩ :=
        exists_embeds_iff.1 ((solve_isSome_iff h).1 rfl)
      obtain rfl := hfirst first hearliest
      obtain rfl := hlast last hlatest
      obtain ⟨b', halign, hpath⟩ := alignBounded_of_solve hquery hearliest hlatest h
        (b := { b with first := first.toArray, last := last.toArray }) rfl rfl
      rw [hearliest, hlatest]
      simp only [Option.isSome_some, bind, Except.bind, halign, pure, Except.pure,
        Bool.true_eq_false, if_false]
      exact ⟨b', rfl, hpath⟩

/-! ## What the buffers held before -/

section
variable {b b' : Buffers} (hfirst : b.first = b'.first)
include hfirst

theorem alignTable_congr (hlast : b.last = b'.last) (wide : Nat) :
    alignTable p b wide = alignTable p b' wide := by
  rw [alignTable, alignTable, hfirst, hlast]

theorem alignGreedy_congr : (alignGreedy p b).map (Prod.map id Buffers.path) =
    (alignGreedy p b').map (Prod.map id Buffers.path) := by
  rw [alignGreedy, alignGreedy, hfirst]
  simp only [bind, Except.bind]
  cases fetch b'.first (p.query.length - 1) with
  | error fault => rfl
  | ok final =>
    dsimp only
    cases tighten p b'.first (.replicate p.query.length 0) (final + 1) p.query.reverse with
    | error fault => rfl
    | ok path =>
      dsimp only
      cases price p path.toList <;> rfl

theorem alignBounded_congr (hlast : b.last = b'.last) :
    (alignBounded p b).map (Prod.map id Buffers.path) =
      (alignBounded p b').map (Prod.map id Buffers.path) := by
  rw [alignBounded, alignBounded, hfirst, hlast]
  cases fetch b'.last (p.query.length - 1) with
  | error fault => rfl
  | ok final =>
    cases fetch b'.first 0 with
    | error fault => rfl
    | ok origin =>
      dsimp only [bind, Except.bind]
      split
      · exact alignGreedy_congr hfirst
      · rw [alignTable_congr hfirst hlast]

end

/-- Of what the buffers held before, only the path is ever seen again. -/
theorem alignIn_congr {b b' : Buffers} (hpath : b.path = b'.path) :
    (alignIn p b).map (Prod.map id Buffers.path) =
      (alignIn p b').map (Prod.map id Buffers.path) := by
  have hscore (x : Except Fault (Int × Buffers)) :
      (x.bind fun r => .ok (some r.1, r.2)).map (Prod.map id Buffers.path) =
        (x.map (Prod.map id Buffers.path)).map (Prod.map some id) := by
    cases x <;> rfl
  rw [alignIn, alignIn]
  split
  · simp only [Except.map, Prod.map, hpath]
  · dsimp only
    split
    · simp only [Except.map, Prod.map, hpath]
    · cases scanBack p (.replicate p.query.length 0) p.columns.size p.query.reverse with
      | error fault => rfl
      | ok scanned =>
        dsimp only [bind, Except.bind]
        split
        · simp only [Except.map, Prod.map, hpath, pure, Except.pure]
        · refine (hscore _).trans (Eq.trans ?_ (hscore _).symm)
          exact congrArg _ (alignBounded_congr rfl rfl)

end FuzzyPath.Alignment
