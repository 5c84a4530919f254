/-
  FuzzyPath — what is kept of the results that are offered.

  * an `Offer` is a result together with what writes its positions, and
    `TopK.offerAll` makes some offers one after the other, with a note of each
    `Writing`;
  * `rankKeys` puts scores and indices in rank order; `Keeps.keys_perm` and
    `Keeps.threshold_eq` say which keys are kept, and which of them is the one
    to beat;
  * `offer_run`: an offer is accepted if it would enter, and only then its
    positions are written;
  * `offerAll_keeps_best`: all of this after any offers.
-/
import FuzzyPath.Proofs.Ranking.TopK
import Mathlib.Data.List.Induction

namespace FuzzyPath

open Ranked
open scoped List

/-! ## Keys in rank order -/

/-- What results are ranked by. -/
def Ranked.key (r : Ranked) : Int × Nat := (r.score, r.index)

/-- Rank order: the higher score first and, of two with one score, the lower
    index. -/
def KeyOrder (a b : Int × Nat) : Prop := b.1 < a.1 ∨ a.1 = b.1 ∧ a.2 ≤ b.2

instance : DecidableRel KeyOrder := fun _ _ => inferInstanceAs (Decidable (_ ∨ _))

/-- Keys in rank order. -/
def rankKeys (keys : List (Int × Nat)) : List (Int × Nat) :=
  keys.mergeSort fun a b => decide (KeyOrder a b)

/-- The first `limit` keys in rank order, or all of them if it is zero. -/
def firstKeys (limit : Nat) (keys : List (Int × Nat)) : List (Int × Nat) :=
  if limit = 0 then rankKeys keys else (rankKeys keys).take limit

theorem KeyOrder.trans {a b c : Int × Nat} (h : KeyOrder a b) (h' : KeyOrder b c) :
    KeyOrder a c := by
  rw [KeyOrder] at *
  omega

theorem KeyOrder.total (a b : Int × Nat) : KeyOrder a b ∨ KeyOrder b a := by
  rw [KeyOrder, KeyOrder]
  omega

theorem rankKeys_pairwise (keys : List (Int × Nat)) : (rankKeys keys).Pairwise KeyOrder := by
  refine (List.pairwise_mergeSort (fun a b c hab hbc => ?_) (fun a b => ?_) keys).imp
    of_decide_eq_true
  · exact decide_eq_true ((of_decide_eq_true hab).trans (of_decide_eq_true hbc))
  · rw [Bool.or_eq_true, decide_eq_true_iff, decide_eq_true_iff]
    exact KeyOrder.total a b

/-- Results in order have their keys in rank order, also if some keys are
    equal. -/
theorem rankKeys_map_key {l l' : List Ranked} (hperm : l ~ l') (hsorted : l'.Pairwise AtLeast) :
    rankKeys (l.map key) = l'.map key := by
  refine List.Perm.eq_of_pairwise (fun a b _ _ hab hba => ?_) (rankKeys_pairwise _)
    (List.pairwise_map.2 (hsorted.imp atLeast_iff.1))
    ((List.mergeSort_perm _ _).trans (hperm.map key))
  rw [KeyOrder] at hab hba
  exact Prod.ext (by omega) (by omega)

namespace TopK

variable {limit : Nat} {top : TopK} {offered : List Ranked}

/-! ## Keys that are kept -/

/-- The keys of the results kept are the first ones of all that were offered. -/
theorem Keeps.keys_perm (h : Keeps limit top offered) :
    top.toList.map key ~ firstKeys limit (offered.map key) := by
  obtain ⟨rest, hperm, hrest, hroom⟩ := h.split
  have hsorted : (sort top.toList ++ sort rest).Pairwise AtLeast := by
    refine List.pairwise_append.2 ⟨sort_pairwise _, sort_pairwise _, fun a ha b hb => ?_⟩
    exact hrest a ((sort_perm _).mem_iff.1 ha) b ((sort_perm _).mem_iff.1 hb)
  have hall : offered ~ sort top.toList ++ sort rest :=
    hperm.symm.trans ((sort_perm _).append (sort_perm _)).symm
  have hkept : top.toList.map key ~ (sort top.toList).map key := ((sort_perm _).map key).symm
  have hlength : ((sort top.toList).map key).length = top.toList.length := by
    rw [List.length_map, (sort_perm _).length_eq]
  have hsize : limit ≠ 0 → top.toList.length ≤ limit := h.wellFormed.size_le
  rw [firstKeys, rankKeys_map_key hall hsorted, List.map_append]
  by_cases hempty : rest = []
  · have hnil : sort rest = [] := by rw [hempty, sort, List.mergeSort_nil]
    rw [hnil, List.map_nil, List.append_nil]
    split
    · exact hkept
    · rw [List.take_of_length_le (by rw [hlength]; exact hsize ‹_›)]
      exact hkept
  · -- Something was turned away, so as many are kept as there is room for.
    obtain ⟨hlimit, hfull⟩ := hroom hempty
    rw [if_neg hlimit, List.take_left' (hlength.trans (le_antisymm (hsize hlimit) hfull))]
    exact hkept

/-- The threshold is the last key of those kept, once there is no more room. -/
theorem Keeps.threshold_eq (h : Keeps limit top offered) :
    top.threshold = if limit = 0 ∨ top.toList.length < limit then none
      else (rankKeys (top.toList.map key)).getLast? := by
  have hwf := h.wellFormed
  by_cases hfull : top.isFull = true
  · obtain ⟨i, worst, hi, hworst, hleast, -⟩ := hwf.exists_worst hfull
    obtain ⟨hlimit, hlength⟩ := hwf.isFull_iff.1 hfull
    have hmem : worst ∈ sort top.toList :=
      (sort_perm _).mem_iff.2 (Array.mem_toList_iff.2 (Array.mem_of_getElem? hworst))
    rw [if_neg (by omega), rankKeys_map_key (sort_perm _).symm (sort_pairwise _), threshold,
      if_pos hfull, root?, hi, Option.bind_some, hworst, Option.map_some]
    rcases List.eq_nil_or_concat' (sort top.toList) with hnil | ⟨before, last, heq⟩
    · rw [hnil] at hmem
      cases hmem
    · -- The last one in order is no better than the worst, and no worse.
      have hsorted := sort_pairwise top.toList
      have hlast : last ∈ sort top.toList := by rw [heq]; exact List.mem_concat_self
      have habove : AtLeast worst last := by
        rw [heq] at hmem hsorted
        rcases List.mem_append.1 hmem with hmem | hmem
        · exact (List.pairwise_append.1 hsorted).2.2 worst hmem last (List.mem_singleton_self _)
        · rw [List.mem_singleton.1 hmem]
          exact AtLeast.refl _
      obtain ⟨hscore, hindex⟩ := habove.antisymm (hleast last ((sort_perm _).mem_iff.1 hlast))
      rw [heq, List.map_append, List.map_singleton, List.getLast?_concat, key, hscore, hindex]
  · rw [threshold, if_neg hfull]
    rw [hwf.isFull_iff] at hfull
    rw [if_pos (by omega)]

/-! ## The heap -/

/-- The result at a place of the heap. -/
def resultAt? (top : TopK) (c : Nat) : Option Ranked := top.heap[c]?.bind (top.slots[·]?)

/-- No result ranks better than one below it. -/
theorem Heaped.above_not_better (h : Heaped top.slots top.heap) {c : Nat} (hc : 0 < c)
    {above below : Ranked} (habove : top.resultAt? ((c - 1) / 2) = some above)
    (hbelow : top.resultAt? c = some below) : above.order below ≠ .lt := by
  obtain ⟨f, hf, horder⟩ := h.order
  obtain ⟨i, hi, -⟩ := Option.bind_eq_some_iff.1 hbelow
  obtain ⟨hcn, -⟩ := Array.getElem?_eq_some_iff.1 hi
  have hparent := parent_lt hc
  have hb := (hf c hcn).symm.trans hbelow
  have ha := (hf (parent c) (hparent.trans hcn)).symm.trans habove
  have hle := horder c hc hcn
  rw [Option.some.inj hb, Option.some.inj ha] at hle
  intro hlt
  rw [Ranked.order, rankOrder_eq_lt_iff, hle] at hlt
  cases hlt

end TopK

/-! ## Offers -/

/-- A result that is offered: its score and index, and what becomes of a buffer
    that its positions are written into. -/
structure Offer where
  score : Int
  index : Nat
  fill : List Nat → List Nat

/-- Positions written for the result with a key: what the buffer held before and
    holds after. -/
structure Writing where
  key : Int × Nat
  before : List Nat
  after : List Nat
  deriving DecidableEq, Repr

namespace Offer

def key (o : Offer) : Int × Nat := (o.score, o.index)

/-- Writes the positions into a buffer, and notes it. -/
def write (o : Offer) (buffer : List Nat) : StateM (List Writing) (List Nat) := do
  modify (· ++ [⟨o.key, buffer, o.fill buffer⟩])
  return o.fill buffer

/-- The result as it is kept. -/
def result (o : Offer) : Ranked := ⟨o.score, o.index, o.fill []⟩

end Offer

namespace TopK

/-- Offers a result. -/
def offer (top : TopK) (o : Offer) : StateM (List Writing) (Bool × TopK) :=
  top.insertWith o.score o.index o.write

/-- Offers some results one after the other. -/
def offerAll (top : TopK) (offers : List Offer) : StateM (List Writing) TopK :=
  offers.foldlM (fun top o => Prod.snd <$> top.offer o) top

/-- The structure with one more result, in place of the worst one if there is no
    more room. -/
def put (top : TopK) (r : Ranked) : TopK :=
  if top.isFull then top.replaceRoot r else top.append r

variable {limit : Nat} {top : TopK} {offered : List Ranked} {written : List Writing}

/-- An offer that would enter is accepted, and its positions are written into an
    empty buffer; any other leaves everything as it is. -/
theorem offer_run (top : TopK) (o : Offer) (written : List Writing) :
    (top.offer o).run written =
      if top.wouldEnter o.score o.index then
        ((true, top.put o.result), written ++ [⟨o.key, [], o.fill []⟩])
      else ((false, top), written) := by
  rw [offer, insertWith]
  split
  · rfl
  · rfl

theorem mem_put {r a : Ranked} (h : a ∈ (top.put r).toList) : a = r ∨ a ∈ top.toList := by
  rw [put] at h
  split at h
  · cases hroot : top.heap[0]? with
    | none => rw [replaceRoot, hroot] at h; exact Or.inr h
    | some i =>
      rw [toList_replaceRoot hroot] at h
      exact (List.mem_or_eq_of_mem_set h).symm
  · rw [toList, append, Array.toList_push] at h
    exact (List.mem_append.1 h).symm.imp_left List.mem_singleton.1

/-- Each result kept has the positions that were written for one with its
    key. -/
def Wrote (top : TopK) (written : List Writing) : Prop :=
  ∀ r ∈ top.toList, ∃ w ∈ written, w.key = r.key ∧ w.before = [] ∧ w.after = r.positions

theorem Wrote.put (h : top.Wrote written) (o : Offer) :
    (top.put o.result).Wrote (written ++ [⟨o.key, [], o.fill []⟩]) := by
  intro r hr
  rcases mem_put hr with rfl | hr
  · exact ⟨_, List.mem_append_right _ (List.mem_singleton_self _), rfl, rfl, rfl⟩
  · obtain ⟨w, hw, heq⟩ := h r hr
    exact ⟨w, List.mem_append_left _ hw, heq⟩

theorem Keeps.put (h : Keeps limit top offered) {r : Ranked}
    (henter : top.wouldEnter r.score r.index = true) : Keeps limit (top.put r) (offered ++ [r]) := by
  rw [TopK.put]
  split
  · exact h.replaceRoot ‹_› henter
  · exact h.append ‹_›

/-- The last offer comes after all others. -/
theorem offerAll_concat {start : TopK} {offers : List Offer}
    (h : (start.offerAll offers).run [] = (top, written)) (o : Offer) :
    (start.offerAll (offers ++ [o])).run [] =
      (((top.offer o).run written).1.2, ((top.offer o).run written).2) := by
  rw [offerAll, List.foldlM_append, StateT.run_bind, ← offerAll, h]
  rfl

/-- After any offers, what is kept agrees with what was offered and what was
    written. -/
theorem offerAll_run (limit expected : Nat) (offers : List Offer) :
    ∃ top written, ((withExpected limit expected).offerAll offers).run [] = (top, written) ∧
      Keeps limit top (offers.map Offer.result) ∧ top.Wrote written := by
  induction offers using List.reverseRecOn with
  | nil => exact ⟨_, _, rfl, keeps_withExpected limit expected, fun r hr => by cases hr⟩
  | append_singleton offers o ih =>
    obtain ⟨top, written, hrun, hkeeps, hwrote⟩ := ih
    have hstep := offerAll_concat hrun o
    rw [offer_run] at hstep
    rw [List.map_append, List.map_singleton]
    split at hstep
    · exact ⟨_, _, hstep, hkeeps.put (r := o.result) ‹_›, hwrote.put o⟩
    · exact ⟨_, _, hstep, hkeeps.skip (r := o.result) ‹_›, hwrote⟩

/-- After any offers, with a limit the heap has every slot once and no result
    above a worse one; the keys kept are the first ones of all offered; the last
    of them is the threshold, once there are as many as the limit allows; and
    their positions are those that were written.  The next offer is accepted if
    it would enter, and then its positions are written into an empty buffer. -/
theorem offerAll_keeps_best (limit expected : Nat) (offers : List Offer) :
    ∃ top written, ((withExpected limit expected).offerAll offers).run [] = (top, written) ∧
      (limit ≠ 0 → top.heap.toList ~ List.range top.slots.size ∧
        ∀ c above below, 0 < c → top.resultAt? ((c - 1) / 2) = some above →
          top.resultAt? c = some below → above.order below ≠ .lt) ∧
      top.toList.map key ~ firstKeys limit (offers.map Offer.key) ∧
      top.threshold = (if limit = 0 ∨ top.toList.length < limit then none
        else (rankKeys (top.toList.map key)).getLast?) ∧
      top.Wrote written ∧
      ∀ o : Offer, ∃ next written',
        (top.offer o).run written = ((top.wouldEnter o.score o.index, next), written') ∧
        written' = written ++
          (if top.wouldEnter o.score o.index then [⟨o.key, [], o.fill []⟩] else []) ∧
        ((withExpected limit expected).offerAll (offers ++ [o])).run [] = (next, written') := by
  obtain ⟨top, written, hrun, hkeeps, hwrote⟩ := offerAll_run limit expected offers
  have hkeys := hkeeps.keys_perm
  rw [List.map_map] at hkeys
  refine ⟨top, written, hrun, fun hlimit => ?_, hkeys, hkeeps.threshold_eq, hwrote, fun o => ?_⟩
  · have hheaped := hkeeps.wellFormed.heaped hlimit
    exact ⟨hheaped.perm, fun c above below hc habove hbelow =>
      hheaped.above_not_better hc habove hbelow⟩
  · refine ⟨_, _, ?_, ?_, offerAll_concat hrun o⟩
    · rw [offer_run]
      cases top.wouldEnter o.score o.index with
      | true => rfl
      | false => rfl
    · rw [offer_run]
      cases top.wouldEnter o.score o.index with
      | true => rfl
      | false => exact (List.append_nil _).symm

end TopK

end FuzzyPath
