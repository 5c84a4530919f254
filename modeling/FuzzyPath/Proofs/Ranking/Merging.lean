/-
  FuzzyPath — merging what several structures keep.

  Results can be shared out over any number of structures, and each structure
  can be offered its share in any order.  None of this can be seen after
  merging.

  * `TopK.gather` is a structure that was offered a share of the results;
  * `IsMerge` says what a merge may give that cuts before it sorts, and leaves
    open in which order it finds the first results;
  * `isMerge_best` and `IsMerge.eq_best`: results with distinct keys have one
    such merge, the best of them;
  * `mergeRanked_eq_ranking`: merging gives the first of all results offered.
-/
import FuzzyPath.Proofs.Ranking.Offers
import FuzzyPath.Proofs.Ranking.Search

namespace FuzzyPath

open Ranked
open scoped List

/-! ## Cutting before sorting -/

/-- `selected` is what may be left of some results when the first `limit` of
    them are brought to the front, in any order. -/
structure Selects (limit : Nat) (all selected : List Ranked) : Prop where
  perm : selected ~ all
  front : ∀ a ∈ selected.take limit, ∀ b ∈ selected.drop limit, AtLeast a b

/-- `kept` is what may be left of some results when all but `limit` of them are
    dropped; none is if there are no more, or without a limit. -/
def Cuts (limit : Nat) (all kept : List Ranked) : Prop :=
  if limit = 0 ∨ all.length ≤ limit then kept = all
  else ∃ selected, Selects limit all selected ∧ kept = selected.take limit

/-- `merged` is what a merge may give that drops all but the first `limit`
    results, and then puts those in order. -/
def IsMerge (limit : Nat) (all merged : List Ranked) : Prop :=
  ∃ kept, Cuts limit all kept ∧ merged ~ kept ∧ merged.Pairwise AtLeast

/-- The ranking begins with what was selected. -/
theorem Selects.sort_eq {limit : Nat} {all selected merged : List Ranked}
    (h : Selects limit all selected) (hkeys : DistinctKeys all)
    (hperm : merged ~ selected.take limit) (hsorted : merged.Pairwise AtLeast) :
    sort all = merged ++ sort (selected.drop limit) := by
  refine sort_eq_of_perm hkeys ?_ (List.pairwise_append.2 ⟨hsorted, sort_pairwise _, ?_⟩)
  · calc all
      _ ~ selected := h.perm.symm
      _ = selected.take limit ++ selected.drop limit := (List.take_append_drop ..).symm
      _ ~ merged ++ sort (selected.drop limit) := hperm.symm.append (sort_perm _).symm
  · intro a ha b hb
    exact h.front a (hperm.mem_iff.1 ha) b ((sort_perm _).mem_iff.1 hb)

/-- Whatever a merge leaves open, it gives the first results of the ranking. -/
theorem IsMerge.eq_best {limit : Nat} {all merged : List Ranked} (h : IsMerge limit all merged)
    (hkeys : DistinctKeys all) : merged = best limit all := by
  obtain ⟨kept, hcuts, hperm, hsorted⟩ := h
  rw [Cuts] at hcuts
  split at hcuts
  · subst hcuts
    rw [best, first, sort_eq_of_perm hkeys hperm.symm hsorted]
    split
    · rfl
    · rw [List.take_of_length_le]
      rw [hperm.length_eq]
      omega
  · rename_i hmore
    obtain ⟨selected, hselects, rfl⟩ := hcuts
    have hlength : merged.length = limit := by
      rw [hperm.length_eq, List.length_take, hselects.perm.length_eq]
      omega
    rw [best, first, if_neg (by omega), hselects.sort_eq hkeys hperm hsorted,
      List.take_left' hlength]

theorem isMerge_best (limit : Nat) (all : List Ranked) : IsMerge limit all (best limit all) := by
  have hsorted := sort_pairwise all
  rw [best, first]
  by_cases hmore : limit = 0 ∨ all.length ≤ limit
  · refine ⟨all, by rw [Cuts, if_pos hmore], ?_⟩
    split
    · exact ⟨sort_perm all, hsorted⟩
    · rw [List.take_of_length_le (by rw [(sort_perm all).length_eq]; omega)]
      exact ⟨sort_perm all, hsorted⟩
  · rw [← List.take_append_drop limit (sort all), List.pairwise_append] at hsorted
    have hselects : Selects limit all (sort all) := ⟨sort_perm all, hsorted.2.2⟩
    rw [if_neg (by omega)]
    refine ⟨_, ?_, List.Perm.refl _, hsorted.1⟩
    rw [Cuts, if_neg hmore]
    exact ⟨_, hselects, rfl⟩

/-! ## Shares -/

namespace TopK

/-- Keeps the best `limit` of a share of the results, offered one after the
    other. -/
def gather (limit : Nat) (share : List Offer) : TopK :=
  (((new limit).offerAll share).run []).1

theorem keeps_gather (limit : Nat) (share : List Offer) :
    Keeps limit (gather limit share) (share.map Offer.result) := by
  obtain ⟨top, written, hrun, hkeeps, -⟩ := offerAll_run limit 0 share
  have hgather : gather limit share = top := congrArg Prod.fst hrun
  rwa [hgather]

theorem keeps_gathers (limit : Nat) (shares : List (List Offer)) :
    List.Forall₂ (Keeps limit) (shares.map (gather limit))
      (shares.map (List.map Offer.result)) := by
  rw [List.forall₂_map_left_iff, List.forall₂_map_right_iff, List.forall₂_same]
  exact fun share _ => keeps_gather limit share

/-- What structures keep is among what they were offered. -/
theorem subperm_of_keeps {limit : Nat} {tops : List TopK} {offered : List (List Ranked)}
    (h : List.Forall₂ (Keeps limit) tops offered) :
    (tops.flatMap toList).Subperm offered.flatten := by
  induction h with
  | nil => exact List.Subperm.refl _
  | @cons top first tops offered htop _ ih =>
    obtain ⟨rest, hperm, -⟩ := htop.split
    rw [List.flatMap_cons, List.flatten_cons]
    exact ((List.sublist_append_left _ rest).subperm.trans hperm.subperm).append ih

end TopK

open TopK

/-- However results with distinct keys are shared out, and in whatever order each
    structure is offered its share, merging gives the first of all results, the
    higher score first and, of two of one score, the lower index; this is also
    the one result of a merge that cuts before it sorts. -/
theorem mergeRanked_eq_ranking (limit : Nat) {offers : List Offer}
    (hkeys : (offers.map Offer.key).Nodup) {shares : List (List Offer)}
    (hshares : shares.flatten ~ offers) :
    mergeRanked (shares.map (gather limit)) limit =
        first limit ((offers.map Offer.result).mergeSort fun a b =>
          decide (b.score < a.score ∨ a.score = b.score ∧ a.index ≤ b.index)) ∧
      ∀ merged, IsMerge limit ((shares.map (gather limit)).flatMap toList) merged ↔
        merged = mergeRanked (shares.map (gather limit)) limit := by
  have hkeeps := keeps_gathers limit shares
  have hoffered : (shares.map (List.map Offer.result)).flatten ~ offers.map Offer.result := by
    rw [← List.map_flatten]
    exact hshares.map _
  have hresults : DistinctKeys (offers.map Offer.result) := by
    rw [DistinctKeys, List.map_map]
    exact hkeys
  have hshared : DistinctKeys (shares.map (List.map Offer.result)).flatten :=
    hresults.perm hoffered.symm
  constructor
  · rw [mergeRanked_eq_best hkeeps hshared, best_congr limit hshared hoffered, best,
      sort_eq_mergeSort]
  · intro merged
    obtain ⟨kept, hperm, hsub⟩ := subperm_of_keeps hkeeps
    constructor
    · exact fun hmerged => hmerged.eq_best ((hshared.sublist hsub).perm hperm)
    · rintro rfl
      exact isMerge_best limit _

theorem mergeRanked_shares_ab :
    let a : Offer := ⟨9, 1, (· ++ [4])⟩
    let b : Offer := ⟨9, 2, (· ++ [5])⟩
    let c : Offer := ⟨5, 0, (· ++ [6])⟩
    ([a, b, c].map Offer.key).Nodup ∧ [[b, c], [], [a]].flatten ~ [a, b, c] ∧
      mergeRanked ([[b, c], [], [a]].map (gather 2)) 2 = [⟨9, 1, [4]⟩, ⟨9, 2, [5]⟩] := by
  intro a b c
  have hkeys : ([a, b, c].map Offer.key).Nodup := by decide
  have hshares : [[b, c], [], [a]].flatten ~ [a, b, c] :=
    (List.perm_append_comm : [b, c] ++ [a] ~ [a] ++ [b, c])
  refine ⟨hkeys, hshares, (mergeRanked_eq_ranking 2 hkeys hshares).1.trans ?_⟩
  simp [a, b, c, Offer.result, first, List.mergeSort]

end FuzzyPath
