/-
  FuzzyPath — the alignment found without a table.

  * `Problem.IsTightest` is the rule: the alignment that ends first, and of
    those with that end the one that is pointwise the greatest;
  * `IsTightest.unique`: the rule leaves one alignment at most;
  * `Problem.SoughtBack` describes the search for it, from the last unit back:
    each unit is put on the last column that is left for it;
  * `greedy_isTightest`: every search finds a column, and what is found keeps
    the rule.
-/
import FuzzyPath.Proofs.Alignment.Outcome
import Mathlib.Order.Bounds.Defs

namespace FuzzyPath.Alignment

namespace Embeds
variable {accepts : TextUnit → Column → Bool} {columns : List Column}

/-- A unit can be moved to any column that accepts it, as long as that is before
    the column of the next unit. -/
theorem advance {front back : List TextUnit} {q : TextUnit} {before after : List Nat} {j k : Nat}
    (h : Embeds accepts columns (front ++ q :: back) (before ++ j :: after))
    (hlen : front.length = before.length) (hjk : j ≤ k) (hk : ∀ i ∈ after, k < i)
    (hq : ∃ c, columns[k]? = some c ∧ accepts q c = true) :
    Embeds accepts columns (front ++ q :: back) (before ++ k :: after) := by
  constructor
  · obtain ⟨hbefore, hrest, hcross⟩ := List.pairwise_append.1 h.increasing
    have hafter := (List.pairwise_cons.1 hrest).2
    refine List.pairwise_append.2 ⟨hbefore, List.pairwise_cons.2 ⟨hk, hafter⟩, fun a ha b hb => ?_⟩
    rcases List.mem_cons.1 hb with rfl | hb
    · exact (hcross a ha j (List.mem_cons_self ..)).trans_le hjk
    · exact hcross a ha b (List.mem_cons_of_mem _ hb)
  · have hfront := List.forall₂_take front.length h.matching
    have hback := List.forall₂_drop front.length h.matching
    rw [List.take_left, List.take_left' hlen.symm] at hfront
    rw [List.drop_left, List.drop_left' hlen.symm] at hback
    exact List.rel_append hfront (.cons hq (List.forall₂_cons.1 hback).2)

end Embeds

variable {p : Problem} {first : List Nat}

/-! ## The rule -/

/-- The alignment that ends first and, with that end, is as tight as can be. -/
structure Problem.IsTightest (p : Problem) (path : List Nat) : Prop where
  isAlignment : p.IsAlignment path
  /-- No alignment ends earlier. -/
  ends : ∀ path', p.IsAlignment path' → ∀ j ∈ path.getLast?, ∀ i ∈ path'.getLast?, j ≤ i
  /-- No alignment with the same end has a unit further right. -/
  greatest : ∀ path', p.IsAlignment path' → path'.getLast? = path.getLast? →
    List.Forall₂ (· ≤ ·) path' path

theorem eq_of_forall₂_le : ∀ {path path' : List Nat}, List.Forall₂ (· ≤ ·) path path' →
    List.Forall₂ (· ≤ ·) path' path → path = path'
  | [], [], .nil, .nil => rfl
  | _ :: _, _ :: _, .cons h hs, .cons h' hs' => by
    rw [Nat.le_antisymm h h', eq_of_forall₂_le hs hs']

theorem Problem.IsTightest.unique {path path' : List Nat} (h : p.IsTightest path)
    (h' : p.IsTightest path') : path = path' := by
  have hlen : path.length = path'.length :=
    h.isAlignment.length_eq.symm.trans h'.isAlignment.length_eq
  have hlast : path.getLast? = path'.getLast? := by
    cases hj : path.getLast? with
    | none =>
      rw [List.getLast?_eq_none_iff] at hj
      rw [hj, List.length_nil] at hlen
      rw [List.length_eq_zero_iff.1 hlen.symm]
      rfl
    | some j =>
      cases hi : path'.getLast? with
      | none =>
        rw [List.getLast?_eq_none_iff] at hi
        rw [hi, List.length_nil, List.length_eq_zero_iff] at hlen
        rw [hlen] at hj
        cases hj
      | some i =>
        rw [Nat.le_antisymm (h.ends path' h'.isAlignment j hj i hi)
          (h'.ends path h.isAlignment i hi j hj)]
  exact eq_of_forall₂_le (h'.greatest path h.isAlignment hlast)
    (h.greatest path' h'.isAlignment hlast.symm)

/-- The columns of a path are those that a search from the end back comes to:
    each unit lies on the last column that accepts it before the column of the
    next unit; that of the last unit is sought before `stop`. -/
def Problem.SoughtBack (p : Problem) (stop : Nat) (path : List Nat) : Prop :=
  ∀ front q back before j after, p.query = front ++ q :: back → path = before ++ j :: after →
    front.length = before.length →
      IsGreatest {k | k < after.headD stop ∧ ∃ c, p.columns[k]? = some c ∧ p.accepts q c = true} j

/-! ## The greedy alignment -/

/-- The last column of an increasing list. -/
theorem getLastD_of_getLast? {path : List Nat} {j : Nat} (h : j ∈ path.getLast?) (d : Nat) :
    path.getLastD d = j := by
  rw [List.getLastD_eq_getLast?, Option.mem_def.1 h, Option.getD_some]

section
variable (hfirst : earliest p.accepts p.query p.columns.toList = some first)
include hfirst

/-- No alignment ends before the earliest end. -/
theorem end_le {path : List Nat} (hpath : p.IsAlignment path) :
    first.getLastD 0 ≤ path.getLastD 0 := by
  obtain ⟨first', hfirst', hle⟩ := earliest_least _ hpath
  obtain rfl : first = first' := Option.some.inj (hfirst.symm.trans hfirst')
  exact forall₂_getLastD (le_refl 0) hle

/-- The greedy alignment is pointwise the greatest of those within the earliest
    end. -/
theorem le_greedyPath {path : List Nat} (hpath : p.IsAlignment path)
    (hend : path.getLastD 0 ≤ first.getLastD 0) :
    List.Forall₂ (· ≤ ·) path (greedyPath p first) := by
  have hwithin := hpath.take (lt_of_getLastD_le hpath.increasing hend)
  obtain ⟨last, hlast, hle⟩ := latest_greatest hwithin
  obtain rfl : greedyPath p first = last :=
    Option.some.inj ((latest_take_eq hfirst).symm.trans hlast)
  exact hle

/-- It ends where the earliest one does. -/
theorem getLastD_greedyPath : (greedyPath p first).getLastD 0 = first.getLastD 0 := by
  have hemb := latest_embeds (latest_take_eq hfirst)
  refine Nat.le_antisymm ?_ (end_le hfirst (greedyPath_isAlignment hfirst))
  cases hpath : greedyPath p first with
  | nil => exact Nat.zero_le _
  | cons i path =>
    rw [hpath] at hemb
    rw [List.getLastD_cons]
    have hlt := hemb.lt_length List.getLastD_mem_cons
    rw [List.length_take] at hlt
    omega

theorem greedyPath_isTightest : p.IsTightest (greedyPath p first) where
  isAlignment := greedyPath_isAlignment hfirst
  ends path hpath j hj i hi := by
    have hle := end_le hfirst hpath
    rwa [← getLastD_greedyPath hfirst, getLastD_of_getLast? hj, getLastD_of_getLast? hi] at hle
  greatest path hpath hlast := by
    refine le_greedyPath hfirst hpath (Nat.le_of_eq ?_)
    rw [← getLastD_greedyPath hfirst, List.getLastD_eq_getLast?, List.getLastD_eq_getLast?, hlast]

/-- Each unit lies as far right as the next one allows, since it could be moved
    there otherwise. -/
theorem greedyPath_soughtBack : p.SoughtBack (first.getLastD 0 + 1) (greedyPath p first) := by
  intro front q back before j after hquery hpath hlen
  have hlatest := latest_take_eq hfirst
  have hemb := latest_embeds hlatest
  rw [hquery, hpath] at hlatest hemb
  have hinc := (List.pairwise_append.1 hemb.increasing).2.1
  have hmatch := List.forall₂_drop front.length hemb.matching
  rw [List.drop_left, List.drop_left' hlen.symm] at hmatch
  obtain ⟨c, hc, hq⟩ := (List.forall₂_cons.1 hmatch).1
  have hstop : ∀ i ∈ before ++ j :: after, i < first.getLastD 0 + 1 := fun i hi =>
    (hemb.lt_length hi).trans_le (List.length_take_le _ _)
  have hj := hstop j (by simp)
  rw [List.getElem?_take_of_lt hj, Array.getElem?_toList] at hc
  constructor
  · refine ⟨?_, c, hc, hq⟩
    cases after with
    | nil => exact hj
    | cons i after => exact (List.pairwise_cons.1 hinc).1 i (List.mem_cons_self ..)
  · rintro k ⟨hk, d, hd, hkq⟩
    obtain ⟨hafter, hkstop⟩ : (∀ i ∈ after, k < i) ∧ k < first.getLastD 0 + 1 := by
      cases after with
      | nil => exact ⟨by simp, hk⟩
      | cons i after =>
        refine ⟨fun b hb => ?_, lt_trans hk (hstop i (by simp))⟩
        rcases List.mem_cons.1 hb with rfl | hb
        · exact hk
        · exact hk.trans ((List.pairwise_cons.1 (List.pairwise_cons.1 hinc).2).1 b hb)
    by_contra hjk
    rw [← Array.getElem?_toList, ← List.getElem?_take_of_lt hkstop] at hd
    have hmoved := hemb.advance hlen (not_le.1 hjk).le hafter ⟨d, hd, hkq⟩
    obtain ⟨last, hlast, hle⟩ := latest_greatest hmoved
    obtain rfl := Option.some.inj (hlatest.symm.trans hlast)
    have hback := List.forall₂_drop before.length hle
    rw [List.drop_left, List.drop_left] at hback
    exact hjk (List.forall₂_cons.1 hback).1

/-- The greedy alignment is the tightest one that ends first.  The search for
    it finds a column for every unit, so that it never has to fall back on the
    earliest ones; with valid prices its worth can be told. -/
theorem greedy_isTightest :
    (∀ path, p.IsTightest path ↔ path = greedyPath p first) ∧
      latest p.accepts p.query (p.columns.toList.take (first.getLastD 0 + 1)) =
        some (greedyPath p first) ∧
      p.SoughtBack (first.getLastD 0 + 1) (greedyPath p first) ∧
      (∀ sol, greedy p first = .ok sol → sol.path = greedyPath p first) ∧
      (p.Moderate → ∃ sol, greedy p first = .ok sol) := by
  have htightest := greedyPath_isTightest hfirst
  refine ⟨fun path => ⟨fun hpath => hpath.unique htightest, fun h => h ▸ htightest⟩,
    latest_take_eq hfirst, greedyPath_soughtBack hfirst, fun sol hsol => (price_of_greedy hsol).1,
    fun hp => ?_⟩
  obtain ⟨sol, hsol, -⟩ := greedy_isAlignment hp hfirst
  exact ⟨sol, hsol⟩

end

/-- The query `aab` beside the columns of `aaxab`. -/
def problemAab : Problem where
  query := [⟨'a', 'a', 0, 1⟩, ⟨'a', 'a', 1, 1⟩, ⟨'b', 'b', 2, 1⟩]
  columns := #[⟨⟨'a', 'a', 0, 1⟩, 14, false⟩, ⟨⟨'a', 'a', 1, 1⟩, 0, false⟩,
    ⟨⟨'x', 'x', 2, 1⟩, 0, false⟩, ⟨⟨'a', 'a', 3, 1⟩, 0, false⟩, ⟨⟨'b', 'b', 4, 1⟩, 0, false⟩]
  caseSensitive := false
  prices := .ofWeights .standard

theorem greedy_isTightest_aab :
    earliest problemAab.accepts problemAab.query problemAab.columns.toList = some [0, 1, 4] ∧
      problemAab.IsTightest [1, 3, 4] ∧ problemAab.SoughtBack 5 [1, 3, 4] ∧
      ∃ sol, greedy problemAab [0, 1, 4] = .ok sol ∧ sol.path = [1, 3, 4] := by
  have hfirst : earliest problemAab.accepts problemAab.query problemAab.columns.toList =
      some [0, 1, 4] := by decide
  have hpath : greedyPath problemAab [0, 1, 4] = [1, 3, 4] := by decide
  have hp : problemAab.Moderate :=
    ⟨by decide, by decide, by decide, by decide, by decide, by decide, by decide⟩
  obtain ⟨htightest, -, hsought, hpaths, hresult⟩ := greedy_isTightest hfirst
  obtain ⟨sol, hsol⟩ := hresult hp
  exact ⟨hfirst, (htightest _).2 hpath.symm, hpath ▸ hsought, sol, hsol,
    (hpaths sol hsol).trans hpath⟩

end FuzzyPath.Alignment
