/-
  FuzzyPath — results have places in the list.

  This holds of every search that gives results, also where a line could not be
  evaluated on its own but ranks too low to be asked for its positions.

  * `TopK.mem_insertWith`: nothing is kept but what was offered;
  * `Search.mem_scan`: a scan keeps results of its own lines only;
  * `Search.exists_line_of_mem_run`: every result of a search is that of a line.
-/
import FuzzyPath.Proofs.Ranking.Search

namespace FuzzyPath

namespace TopK
variable {top top' : TopK} {r : Ranked}

theorem mem_replaceRoot {result : Ranked} (h : r ∈ (top.replaceRoot result).toList) :
    r ∈ top.toList ∨ r = result := by
  rw [toList, replaceRoot] at h
  cases hroot : top.heap[0]? with
  | none =>
    rw [hroot] at h
    exact Or.inl h
  | some root =>
    rw [hroot] at h
    simp only [Array.toList_setIfInBounds] at h
    exact List.mem_or_eq_of_mem_set h

theorem mem_append {result : Ranked} (h : r ∈ (top.append result).toList) :
    r ∈ top.toList ∨ r = result := by
  simpa [toList, append] using h

/-- What is kept was kept before, or has the place that was offered. -/
theorem mem_insertWith {score : Int} {index : Nat} {fill : List Nat → Except Fault (List Nat)}
    {kept : Bool} (h : top.insertWith score index fill = .ok (kept, top')) (hr : r ∈ top'.toList) :
    r ∈ top.toList ∨ r.index = index := by
  rw [insertWith] at h
  split at h
  · obtain ⟨positions, -, h⟩ := bind_eq_ok h
    obtain ⟨-, rfl⟩ := Prod.mk.inj (Except.ok.inj h)
    have hmem : r ∈ top.toList ∨ r = ⟨score, index, positions⟩ := by
      split at hr
      · exact mem_replaceRoot hr
      · exact mem_append hr
    rcases hmem with hmem | rfl
    · exact Or.inl hmem
    · exact Or.inr rfl
  · obtain ⟨-, rfl⟩ := Prod.mk.inj (Except.ok.inj h)
    exact Or.inl hr

end TopK

namespace Search
variable {s : Search}

/-- A scan that begins at a place keeps results of the places from there on. -/
theorem mem_scan : ∀ {lines : List String} {index : Nat} {scorer : Scorer} {top top' : TopK}
    {r : Ranked}, s.scan scorer top index lines = .ok top' → r ∈ top'.toList →
    r ∈ top.toList ∨ ∃ line ∈ lines.zipIdx index, line.2 = r.index
  | [], _, _, _, _, _, h, hr => by
    obtain rfl := Except.ok.inj h
    exact Or.inl hr
  | line :: lines, index, scorer, top, top', r, h, hr => by
    rw [scan] at h
    rw [List.zipIdx_cons]
    -- What the lines after this one keep beside what was kept before them.
    have hlater {scorer' : Scorer} {between : TopK}
        (hscan : s.scan scorer' between (index + 1) lines = .ok top') :
        r ∈ between.toList ∨ ∃ other ∈ (line, index) :: lines.zipIdx (index + 1),
          other.2 = r.index := by
      rcases mem_scan hscan hr with hmem | ⟨other, hother, hindex⟩
      · exact Or.inl hmem
      · exact Or.inr ⟨other, List.mem_cons_of_mem _ hother, hindex⟩
    split at h
    · cases h
    · exact hlater h
    · split at h
      · cases h
      · rename_i hinsert
        rcases hlater h with hmem | hplace
        · rcases TopK.mem_insertWith hinsert hmem with hmem | hindex
          · exact Or.inl hmem
          · exact Or.inr ⟨_, List.mem_cons_self, hindex.symm⟩
        · exact Or.inr hplace

theorem mem_mergeRanked {tops : List TopK} {limit : Nat} {r : Ranked}
    (h : r ∈ mergeRanked tops limit) : ∃ top ∈ tops, r ∈ top.toList := by
  have hsort : r ∈ Ranked.sort (tops.flatMap TopK.toList) := by
    rw [mergeRanked] at h
    split at h
    · exact h
    · exact List.mem_of_mem_take h
  exact List.mem_flatMap.1 ((Ranked.sort_perm _).mem_iff.1 hsort)

/-- Every result of a search stands for a line of the list. -/
theorem exists_line_of_mem_run {hardware : Nat} {items : List String} {results : List Ranked}
    (h : s.run hardware items = .ok results) {r : Ranked} (hr : r ∈ results) :
    ∃ line, items[r.index]? = some line := by
  rw [run] at h
  split at h
  · obtain rfl := Except.ok.inj h
    cases hr
  · obtain ⟨tops, htops, h⟩ := bind_eq_ok h
    obtain rfl := Except.ok.inj h
    obtain ⟨top, htop, hr⟩ := mem_mergeRanked hr
    obtain ⟨part, hpart, hscan⟩ := exists_of_mem_mapM htops htop
    rcases mem_scan hscan hr with hmem | ⟨line, hline, hindex⟩
    · cases hmem
    · have hall : line ∈ items.zipIdx := by
        rw [← s.parts_zipIdx hardware items]
        exact List.mem_flatMap.2 ⟨part, hpart, hline⟩
      rw [← hindex]
      exact ⟨line.1, List.mem_zipIdx_iff_getElem?.1 hall⟩

end Search

end FuzzyPath
