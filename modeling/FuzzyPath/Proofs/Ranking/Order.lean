/-
  FuzzyPath — the order of results, and the best of them.

  * `Ranked.AtLeast` says that one result does not rank below another; it is a
    total order of their scores and indices;
  * `Ranked.sort_eq_of_perm`: results with distinct keys have one ranking;
  * `Ranked.best` are the first of the ranking, and by `Ranked.best_append` a
    result that enough others outrank has no part in them.
-/
import FuzzyPath.Ranking.Ranked
import Mathlib.Data.Int.Order.Basic
import Mathlib.Data.List.Nodup
import Mathlib.Data.List.Perm.Subperm
import Mathlib.Order.Nat

namespace FuzzyPath.Ranked

open scoped List

/-! ## The order -/

/-- `a` does not rank below `b`. -/
def AtLeast (a b : Ranked) : Prop := a.isWorse b = false

theorem isWorse_iff {a b : Ranked} :
    a.isWorse b = true ↔ a.score < b.score ∨ a.score = b.score ∧ b.index < a.index := by
  rw [isWorse, order, rankOrder, beq_iff_eq, Ordering.then_eq_gt, compare_gt_iff_gt,
    compare_eq_iff_eq, compare_gt_iff_gt]
  constructor
  · rintro (h | ⟨h, h'⟩)
    · exact Or.inl h
    · exact Or.inr ⟨h.symm, h'⟩
  · rintro (h | ⟨h, h'⟩)
    · exact Or.inl h
    · exact Or.inr ⟨h.symm, h'⟩

theorem rankOrder_eq_lt_iff {a b : Ranked} :
    rankOrder a.score a.index b.score b.index = .lt ↔ b.isWorse a = true := by
  rw [isWorse_iff, rankOrder, Ordering.then_eq_lt, compare_lt_iff_lt, compare_eq_iff_eq,
    compare_lt_iff_lt]

theorem atLeast_iff {a b : Ranked} :
    AtLeast a b ↔ b.score < a.score ∨ a.score = b.score ∧ a.index ≤ b.index := by
  rw [AtLeast, ← Bool.not_eq_true, isWorse_iff]
  omega

namespace AtLeast
variable {a b c : Ranked}

theorem refl (a : Ranked) : AtLeast a a := atLeast_iff.2 (Or.inr ⟨rfl, le_rfl⟩)

theorem trans (h : AtLeast a b) (h' : AtLeast b c) : AtLeast a c := by
  rw [atLeast_iff] at *
  omega

theorem of_isWorse (h : a.isWorse b = true) : AtLeast b a := by
  rw [isWorse_iff] at h
  rw [atLeast_iff]
  omega

theorem total (a b : Ranked) : AtLeast a b ∨ AtLeast b a := by
  rw [atLeast_iff, atLeast_iff]
  omega

theorem antisymm (h : AtLeast a b) (h' : AtLeast b a) : a.score = b.score ∧ a.index = b.index := by
  rw [atLeast_iff] at h h'
  omega

end AtLeast

/-! ## Sorting -/

theorem sort_perm (l : List Ranked) : (sort l).Perm l := List.mergeSort_perm l _

theorem sort_pairwise (l : List Ranked) : (sort l).Pairwise AtLeast := by
  have htrans : ∀ a b c : Ranked, (!a.isWorse b) = true → (!b.isWorse c) = true →
      (!a.isWorse c) = true := fun a b c hab hbc => by
    rw [Bool.not_eq_true'] at *
    exact AtLeast.trans hab hbc
  have htotal : ∀ a b : Ranked, (!a.isWorse b || !b.isWorse a) = true := fun a b => by
    rw [Bool.or_eq_true, Bool.not_eq_true', Bool.not_eq_true']
    exact AtLeast.total a b
  refine (List.pairwise_mergeSort htrans htotal l).imp fun h => ?_
  rwa [Bool.not_eq_true'] at h

/-- No two results have both the same score and the same index. -/
def DistinctKeys (l : List Ranked) : Prop := (l.map fun r => (r.score, r.index)).Nodup

namespace DistinctKeys
variable {l l' : List Ranked}

theorem perm (h : DistinctKeys l) (hperm : l.Perm l') : DistinctKeys l' :=
  (hperm.map _).nodup h

theorem sublist (h : DistinctKeys l) (hsub : l'.Sublist l) : DistinctKeys l' :=
  List.Nodup.sublist (hsub.map _) h

theorem eq_of_mem (h : DistinctKeys l) {a b : Ranked} (ha : a ∈ l) (hb : b ∈ l)
    (hscore : a.score = b.score) (hindex : a.index = b.index) : a = b :=
  List.inj_on_of_nodup_map h ha hb (by rw [hscore, hindex])

end DistinctKeys

/-- Results with distinct keys have one ranking. -/
theorem sort_eq_of_perm {l l' : List Ranked} (hkeys : DistinctKeys l) (hperm : l.Perm l')
    (hsorted : l'.Pairwise AtLeast) : sort l = l' := by
  refine List.Perm.eq_of_pairwise ?_ (sort_pairwise l) hsorted ((sort_perm l).trans hperm)
  intro a b ha hb hab hba
  obtain ⟨hscore, hindex⟩ := hab.antisymm hba
  exact hkeys.eq_of_mem ((sort_perm l).mem_iff.1 ha) (hperm.mem_iff.2 hb) hscore hindex

theorem sort_congr {l l' : List Ranked} (hkeys : DistinctKeys l) (hperm : l.Perm l') :
    sort l = sort l' :=
  sort_eq_of_perm hkeys (hperm.trans (sort_perm l').symm) (sort_pairwise l')

/-- Results that are left out leave the others as they stand. -/
theorem sort_filter {l : List Ranked} (hkeys : DistinctKeys l) (p : Ranked → Bool) :
    sort (l.filter p) = (sort l).filter p :=
  sort_eq_of_perm (hkeys.sublist List.filter_sublist) ((sort_perm l).symm.filter p)
    ((sort_pairwise l).filter p)

/-- The ranking, by score and then by index. -/
theorem sort_eq_mergeSort (l : List Ranked) : sort l =
    l.mergeSort fun a b => decide (b.score < a.score ∨ a.score = b.score ∧ a.index ≤ b.index) := by
  rw [sort]
  congr 1
  funext a b
  rw [Bool.eq_iff_iff, Bool.not_eq_true', decide_eq_true_iff]
  exact atLeast_iff

theorem distinctKeys_of_nodup {l : List Ranked} (h : (l.map (·.index)).Nodup) :
    DistinctKeys l := by
  refine List.Nodup.of_map Prod.snd ?_
  rwa [List.map_map]

/-! ## The best results -/

/-- The first `limit` results of a ranking, or all if it is zero. -/
def first (limit : Nat) (ranking : List Ranked) : List Ranked :=
  if limit = 0 then ranking else ranking.take limit

theorem first_nil (limit : Nat) : first limit [] = [] := by
  rw [first, List.take_nil, ite_self]

/-- The first results of their ranking. -/
def best (limit : Nat) (l : List Ranked) : List Ranked := first limit (sort l)

/-- A smaller limit gives a prefix. -/
theorem first_prefix_first {limit limit' : Nat} (hlimit : limit ≠ 0)
    (h : limit' = 0 ∨ limit ≤ limit') (ranking : List Ranked) :
    first limit ranking <+: first limit' ranking := by
  rw [first, first, if_neg hlimit]
  split
  · exact List.take_prefix limit ranking
  · rcases h with h | h
    · contradiction
    · exact List.take_prefix_take_left h

theorem best_congr {l l' : List Ranked} (limit : Nat) (hkeys : DistinctKeys l)
    (hperm : l.Perm l') : best limit l = best limit l' := by
  rw [best, best, sort_congr hkeys hperm]

/-- A result among the first `limit` of a ranking outranks every result that
    `limit` others rank no lower than. -/
theorem atLeast_of_mem_take {l l' : List Ranked} {limit : Nat} {a b : Ranked}
    (ha : a ∈ (sort l).take limit) (hsub : l'.Subperm l) (hlimit : limit ≤ l'.length)
    (hb : ∀ x ∈ l', AtLeast x b) : AtLeast a b := by
  by_contra hab
  rw [AtLeast, Bool.not_eq_false] at hab
  -- All of `l'` would stand before `a`.
  have hall : ∀ x ∈ l', a.isWorse x = true := fun x hx => by
    by_contra hax
    have := AtLeast.trans (Bool.eq_false_iff.2 hax) (hb x hx)
    rw [AtLeast, hab] at this
    cases this
  have hcount : l'.length ≤ (sort l).countP (a.isWorse ·) := by
    rw [(sort_perm l).countP_eq, ← List.countP_eq_length.2 hall]
    obtain ⟨l'', hperm, hsub⟩ := hsub
    rw [← hperm.countP_eq]
    exact hsub.countP_le
  obtain ⟨before, after, htake⟩ := List.append_of_mem ha
  have hsorted := sort_pairwise l
  rw [← List.take_append_drop limit (sort l), htake, List.append_assoc,
    List.pairwise_append] at hsorted
  obtain ⟨hafter, -⟩ := List.pairwise_cons.1 hsorted.2.1
  have hnone : (a :: (after ++ (sort l).drop limit)).countP (a.isWorse ·) = 0 :=
    List.countP_eq_zero.2 fun x hx => by
      rcases List.mem_cons.1 hx with rfl | hx
      · exact Bool.eq_false_iff.1 (AtLeast.refl _)
      · exact Bool.eq_false_iff.1 (hafter x hx)
  rw [← List.take_append_drop limit (sort l), htake, List.append_assoc, List.countP_append,
    List.cons_append, hnone] at hcount
  have hlength := congrArg List.length htake
  have hle := List.countP_le_length (p := (a.isWorse ·)) (l := before)
  simp only [List.length_take, List.length_append, List.length_cons] at hlength
  omega

/-- Results that `limit` others outrank have no part in the best ones. -/
theorem best_append {kept rest : List Ranked} (others : List Ranked) {limit : Nat}
    (hkeys : DistinctKeys (kept ++ rest ++ others))
    (hrest : ∀ a ∈ kept, ∀ b ∈ rest, AtLeast a b)
    (hfull : rest ≠ [] → limit ≠ 0 ∧ limit ≤ kept.length) :
    best limit (kept ++ rest ++ others) = best limit (kept ++ others) := by
  by_cases hempty : rest = []
  · rw [hempty, List.append_nil]
  · obtain ⟨hlimit, hlength⟩ := hfull hempty
    rw [best, best, first, first, if_neg hlimit, if_neg hlimit]
    have hsplit := List.take_append_drop limit (sort (kept ++ others))
    have htake : ((sort (kept ++ others)).take limit).length = limit := by
      rw [List.length_take, (sort_perm _).length_eq, List.length_append]; omega
    have hsorted := sort_pairwise (kept ++ others)
    rw [← hsplit, List.pairwise_append] at hsorted
    -- The ranking goes on with what is left of both.
    have hrank : sort (kept ++ rest ++ others) = (sort (kept ++ others)).take limit ++
        sort ((sort (kept ++ others)).drop limit ++ rest) := by
      refine sort_eq_of_perm hkeys ?_ (List.pairwise_append.2 ⟨hsorted.1, sort_pairwise _, ?_⟩)
      · calc kept ++ rest ++ others
          _ = kept ++ (rest ++ others) := List.append_assoc ..
          _ ~ kept ++ (others ++ rest) := List.perm_append_comm.append_left kept
          _ = kept ++ others ++ rest := (List.append_assoc ..).symm
          _ ~ sort (kept ++ others) ++ rest := (sort_perm _).symm.append_right rest
          _ = (sort (kept ++ others)).take limit ++
              ((sort (kept ++ others)).drop limit ++ rest) := by
            rw [← List.append_assoc, hsplit]
          _ ~ _ := (sort_perm _).symm.append_left _
      · intro a ha b hb
        rcases List.mem_append.1 ((sort_perm _).mem_iff.1 hb) with hb | hb
        · exact hsorted.2.2 a ha b hb
        · exact atLeast_of_mem_take ha (List.sublist_append_left kept others).subperm hlength
            fun x hx => hrest x hx b hb
    rw [hrank, List.take_append_of_le_length (by omega), List.take_take, min_self]

end FuzzyPath.Ranked
