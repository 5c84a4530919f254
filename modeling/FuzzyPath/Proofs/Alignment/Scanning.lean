/-
  FuzzyPath — the scans for the bounds, in arrays.

  Arrays are filled from the front by the one scan and from the back by the
  other; what has not been filled yet are zeros.

  * `fetch_toArray` and `store_toArray`: reading and writing an element that has
    others before and after it;
  * `scanFront_of_some` and `scanFront_of_none`: the scan from the front finds the
    earliest columns;
  * `scanBack_of_some` and `scanBack_of_none`: the scan from the end finds the
    latest ones, and so does `tighten` (`tighten_of_latest`).
-/
import FuzzyPath.Alignment.Buffers
import FuzzyPath.Proofs.Alignment.Embedding

namespace FuzzyPath

/-! ## Elements of arrays -/

section
variable {α : Type} {xs : Array α} {i : Nat} {x : α}

theorem fetch_eq_ok (h : xs[i]? = some x) : fetch xs i = .ok x := by
  rw [fetch, h]

theorem fetch_toArray {l : List α} (h : l[i]? = some x) : fetch l.toArray i = .ok x :=
  fetch_eq_ok (by rw [List.getElem?_toArray, h])

theorem store_toArray {front : List α} (h : front.length = i) (back : List α) (x y : α) :
    store (front ++ x :: back).toArray i y = .ok (front ++ y :: back).toArray := by
  subst h
  rw [store, dif_pos (by simp)]
  simp

end

namespace Alignment

variable {p : Problem} {first : List Nat}

/-! ## From the front -/

theorem scanFront_of_some : ∀ {columns : List Column} {query : List TextUnit} {found : List Nat}
    {j : Nat}, earliestFrom p.accepts found j query columns = some first →
      scanFront p found.reverse.toArray j query columns = (first.toArray, true)
  | columns, [], found, j, h => by
    rw [earliestFrom] at h
    rw [scanFront, ← Option.some.inj h]
  | [], q :: query, found, j, h => by cases h
  | c :: columns, q :: query, found, j, h => by
    rw [earliestFrom] at h
    rw [scanFront]
    split at h
    · rename_i hq
      have hpush : found.reverse.toArray.push j = (j :: found).reverse.toArray := by simp
      rw [if_pos hq, hpush, scanFront_of_some h]
    · rename_i hq
      rw [if_neg hq, scanFront_of_some h]

theorem scanFront_of_none : ∀ {columns : List Column} {query : List TextUnit} {found : List Nat}
    {j : Nat}, earliestFrom p.accepts found j query columns = none →
      (scanFront p found.reverse.toArray j query columns).2 = false
  | columns, [], found, j, h => by
    rw [earliestFrom] at h
    cases h
  | [], q :: query, found, j, h => rfl
  | c :: columns, q :: query, found, j, h => by
    rw [earliestFrom] at h
    rw [scanFront]
    split at h
    · rename_i hq
      have hpush : found.reverse.toArray.push j = (j :: found).reverse.toArray := by simp
      rw [if_pos hq, hpush, scanFront_of_none h]
    · rename_i hq
      rw [if_neg hq, scanFront_of_none h]

/-! ## From the end -/

section
variable {accepts : TextUnit → Column → Bool}

/-- The last unit is put on the last column, if that accepts it. -/
theorem latest_concat (query : List TextUnit) (q : TextUnit) (columns : List Column) (c : Column) :
    latest accepts (query ++ [q]) (columns ++ [c]) =
      if accepts q c then (latest accepts query columns).map (· ++ [columns.length])
      else latest accepts (query ++ [q]) columns := by
  -- Seen from the other end, the other columns have moved by one place.
  have hback (path : List Nat) :
      (path.map (· + 1)).map ((columns ++ [c]).length - 1 - ·) =
        path.map (columns.length - 1 - ·) := by
    rw [List.map_map]
    refine List.map_congr_left fun j _ => ?_
    simp only [List.length_append, List.length_singleton, Function.comp_apply]
    omega
  simp only [latest, List.reverse_append, List.reverse_singleton, List.singleton_append,
    earliest_cons_cons]
  split
  · rw [Option.map_map, Option.map_map]
    congr 1
    funext path
    rw [Function.comp_apply, Function.comp_apply, List.map_cons, hback, List.reverse_cons]
    simp
  · rw [Option.map_map]
    congr 1
    funext path
    rw [Function.comp_apply, hback]

theorem latest_concat_nil (query : List TextUnit) (q : TextUnit) :
    latest accepts (query ++ [q]) [] = none := by
  rw [latest, List.reverse_append]
  rfl

end

/-- The last unit is put on the last column that accepts it. -/
theorem latest_take_concat (query : List TextUnit) (q : TextUnit) : ∀ {stop : Nat},
    stop ≤ p.columns.size →
      latest p.accepts (query ++ [q]) (p.columns.toList.take stop) =
        (lastBelow (p.acceptsAt q) stop).bind fun k =>
          (latest p.accepts query (p.columns.toList.take k)).map (· ++ [k])
  | 0, _ => by
    rw [List.take_zero, latest_concat_nil]
    rfl
  | k + 1, h => by
    have hk : k < p.columns.toList.length := by rwa [Array.length_toList]
    have haccepts : p.acceptsAt q k = p.accepts q p.columns.toList[k] := by
      rw [Problem.acceptsAt, ← Array.getElem?_toList, List.getElem?_eq_getElem hk, Option.any_some]
    rw [List.take_add_one, List.getElem?_eq_getElem hk, Option.toList_some, latest_concat,
      lastBelow, haccepts]
    split
    · rw [List.length_take_of_le (Nat.le_of_lt hk)]
      rfl
    · exact latest_take_concat query q (Nat.le_of_succ_le h)

theorem lastBelow_le {test : Nat → Bool} : ∀ {stop k : Nat}, lastBelow test stop = some k →
    k ≤ stop
  | 0, _, h => by cases h
  | n + 1, k, h => by
    rw [lastBelow] at h
    split at h
    · rw [← Option.some.inj h]
      exact Nat.le_succ n
    · exact Nat.le_succ_of_le (lastBelow_le h)

/-- The columns found so far stand after the zeros of the units that are left. -/
theorem store_zeros (n k : Nat) (tail : List Nat) :
    store (List.replicate (n + 1) 0 ++ tail).toArray n k =
      .ok (List.replicate n 0 ++ k :: tail).toArray := by
  have hzeros : List.replicate (n + 1) 0 ++ tail = List.replicate n 0 ++ 0 :: tail := by
    rw [List.replicate_succ', List.append_assoc, List.singleton_append]
  rw [hzeros, store_toArray List.length_replicate]

/-- Where there are latest columns, the scan finds them. -/
theorem scanBack_of_some : ∀ {query : List TextUnit} {stop : Nat} {path : List Nat},
    stop ≤ p.columns.size →
    latest p.accepts query.reverse (p.columns.toList.take stop) = some path → ∀ tail : List Nat,
    scanBack p (List.replicate query.length 0 ++ tail).toArray stop query =
      .ok ((path ++ tail).toArray, true)
  | [], stop, path, _, h, tail => by
    obtain rfl : [] = path := by simpa [latest, earliest, earliestFrom] using h
    rfl
  | q :: query, stop, path, hstop, h, tail => by
    rw [List.reverse_cons, latest_take_concat _ _ hstop, Option.bind_eq_some_iff] at h
    obtain ⟨k, hk, h⟩ := h
    obtain ⟨front, hfront, rfl⟩ := Option.map_eq_some_iff.1 h
    have hrest := scanBack_of_some (Nat.le_trans (lastBelow_le hk) hstop) hfront (k :: tail)
    rw [scanBack, hk, List.length_cons]
    simp only [store_zeros, bind, Except.bind, hrest]
    rw [List.append_assoc, List.singleton_append]

/-- Where there are none, it fails. -/
theorem scanBack_of_none : ∀ {query : List TextUnit} {stop : Nat}, stop ≤ p.columns.size →
    latest p.accepts query.reverse (p.columns.toList.take stop) = none → ∀ tail : List Nat,
    ∃ last, scanBack p (List.replicate query.length 0 ++ tail).toArray stop query =
      .ok (last, false)
  | [], stop, _, h, tail => by simp [latest, earliest, earliestFrom] at h
  | q :: query, stop, hstop, h, tail => by
    rw [List.reverse_cons, latest_take_concat _ _ hstop] at h
    rw [scanBack]
    cases hk : lastBelow (p.acceptsAt q) stop with
    | none => exact ⟨_, rfl⟩
    | some k =>
      rw [hk, Option.bind_some, Option.map_eq_none_iff] at h
      obtain ⟨last, hrest⟩ := scanBack_of_none (Nat.le_trans (lastBelow_le hk) hstop) h (k :: tail)
      refine ⟨last, ?_⟩
      rw [List.length_cons]
      simp only [store_zeros, bind, Except.bind, hrest]

/-- The search for the tightest alignment finds the latest columns as well, if
    there are any. -/
theorem tighten_of_latest (first : Array Nat) : ∀ {query : List TextUnit} {stop : Nat}
    {path : List Nat}, stop ≤ p.columns.size →
    latest p.accepts query.reverse (p.columns.toList.take stop) = some path → ∀ tail : List Nat,
    tighten p first (List.replicate query.length 0 ++ tail).toArray stop query =
      .ok (path ++ tail).toArray
  | [], stop, path, _, h, tail => by
    obtain rfl : [] = path := by simpa [latest, earliest, earliestFrom] using h
    rfl
  | q :: query, stop, path, hstop, h, tail => by
    rw [List.reverse_cons, latest_take_concat _ _ hstop, Option.bind_eq_some_iff] at h
    obtain ⟨k, hk, h⟩ := h
    obtain ⟨front, hfront, rfl⟩ := Option.map_eq_some_iff.1 h
    have hrest := tighten_of_latest first (Nat.le_trans (lastBelow_le hk) hstop) hfront (k :: tail)
    rw [tighten, hk, List.length_cons]
    simp only [store_zeros, bind, Except.bind, pure, Except.pure, hrest]
    rw [List.append_assoc, List.singleton_append]

end Alignment

end FuzzyPath
