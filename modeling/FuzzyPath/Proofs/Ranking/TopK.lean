/-
  FuzzyPath — the best few are kept.

  * `TopK.WellFormed` says that the heap holds every slot number once, and is
    in order;
  * `TopK.Keeps` says which results were offered so far: those kept, and others
    that none of them ranks below;
  * `keeps_withExpected` and `Keeps.insertWith`: so it is at first, and after each result;
  * `best_of_keeps`: what several structures keep is enough to find the best of
    all that they were offered.
-/
import FuzzyPath.Proofs.Ranking.Heap
import Mathlib.Data.List.Forall2

namespace FuzzyPath.TopK

open Ranked
open scoped List

/-- A heap in order that holds every slot number once. -/
structure Heaped (slots : Array Ranked) (heap : Array Nat) : Prop where
  perm : heap.toList ~ List.range slots.size
  order : ∃ f, Holds slots heap f ∧ HeapOrder f heap.size

/-- With a bound, no more results are kept than it allows, and there is a heap
    of them. -/
structure WellFormed (limit : Nat) (top : TopK) : Prop where
  capacity_eq : top.capacity = if limit = 0 then none else some limit
  size_le : limit ≠ 0 → top.slots.size ≤ limit
  heaped : limit ≠ 0 → Heaped top.slots top.heap

/-- All results offered so far are kept, or are not turned away before there is
    no more room, and rank no higher than those kept. -/
structure Keeps (limit : Nat) (top : TopK) (offered : List Ranked) : Prop where
  wellFormed : top.WellFormed limit
  split : ∃ rest, top.toList ++ rest ~ offered ∧ (∀ a ∈ top.toList, ∀ b ∈ rest, AtLeast a b) ∧
    (rest ≠ [] → limit ≠ 0 ∧ limit ≤ top.toList.length)

/-! ## The heap of a structure -/

namespace Heaped
variable {slots : Array Ranked} {heap : Array Nat}

theorem size_eq (h : Heaped slots heap) : heap.size = slots.size := by
  have := h.perm.length_eq
  rwa [List.length_range, Array.length_toList] at this

theorem of_restores {heap' : Array Nat} (h : heap.toList ~ List.range slots.size)
    (h' : Restores slots heap heap') : Heaped slots heap' :=
  ⟨h'.1.trans h, h'.2⟩

/-- The root is the number of the slot with the worst result. -/
theorem exists_root (h : Heaped slots heap) (hpos : 0 < slots.size) :
    ∃ i worst, heap[0]? = some i ∧ slots[i]? = some worst ∧
      ∀ a ∈ slots.toList, AtLeast a worst := by
  obtain ⟨f, hf, horder⟩ := h.order
  have hsize := h.size_eq
  have hroot := hf 0 (by omega)
  rw [Array.getElem?_eq_getElem (by omega), Option.bind_some] at hroot
  refine ⟨heap[0], f 0, Array.getElem?_eq_getElem _, hroot, fun a ha => ?_⟩
  obtain ⟨i, hi, rfl⟩ := List.getElem_of_mem ha
  rw [Array.length_toList] at hi
  obtain ⟨c, hc, hci⟩ := List.getElem_of_mem (h.perm.mem_iff.2 (List.mem_range.2 hi))
  rw [Array.length_toList] at hc
  have hat := hf c hc
  rw [Array.getElem?_eq_getElem hc, Option.bind_some, ← Array.getElem_toList, hci,
    Array.getElem?_eq_getElem hi, Option.some.injEq] at hat
  rw [Array.getElem_toList, hat]
  exact horder.root c hc

/-- A new result in the slot of the worst one moves down from the root. -/
theorem replace (h : Heaped slots heap) {i : Nat} (hi : heap[0]? = some i) (r : Ranked) :
    Heaped (slots.setIfInBounds i r) (siftDown (slots.setIfInBounds i r) heap 0) := by
  obtain ⟨f, hf, horder⟩ := h.order
  obtain ⟨hpos, rfl⟩ := Array.getElem?_eq_some_iff.1 hi
  have hnodup : heap.toList.Nodup := h.perm.nodup_iff.2 List.nodup_range
  have hperm : heap.toList ~ List.range (slots.setIfInBounds heap[0] r).size := by
    rw [Array.size_setIfInBounds]; exact h.perm
  have hholds : Holds (slots.setIfInBounds heap[0] r) heap fun c => if c = 0 then r else f c := by
    intro c hc
    have hat := hf c hc
    rw [Array.getElem?_eq_getElem hc, Option.bind_some] at hat ⊢
    obtain ⟨hlt, -⟩ := Array.getElem?_eq_some_iff.1 hat
    dsimp only
    rcases eq_or_ne c 0 with rfl | hne
    · rw [if_pos rfl, Array.getElem?_setIfInBounds_self_of_lt hlt]
    · rw [if_neg hne, Array.getElem?_setIfInBounds_ne, hat]
      intro heq
      rw [← Array.getElem_toList, ← Array.getElem_toList] at heq
      exact hne ((hnodup.getElem_inj_iff).1 heq).symm
  refine of_restores hperm (siftDown_spec _ heap 0 _ hholds hpos ⟨?_, fun h => absurd h (by omega)⟩)
  intro c hc hcn hne
  rw [if_neg (by omega), if_neg hne]
  exact horder c hc hcn

/-- A new result in a slot of its own moves up from the end. -/
theorem push (h : Heaped slots heap) (r : Ranked) :
    Heaped (slots.push r) (siftUp (slots.push r) (heap.push slots.size) heap.size) := by
  obtain ⟨f, hf, horder⟩ := h.order
  have hsize := h.size_eq
  have hperm : (heap.push slots.size).toList ~ List.range (slots.push r).size := by
    rw [Array.toList_push, Array.size_push, List.range_succ]
    exact h.perm.append_right _
  have hholds : Holds (slots.push r) (heap.push slots.size)
      fun c => if c = heap.size then r else f c := by
    intro c hc
    rw [Array.size_push] at hc
    dsimp only
    rcases eq_or_ne c heap.size with rfl | hne
    · rw [if_pos rfl, Array.getElem?_push_size, Option.bind_some, Array.getElem?_push_size]
    · have hlt : c < heap.size := by omega
      have hat := hf c hlt
      rw [Array.getElem?_eq_getElem hlt, Option.bind_some] at hat
      obtain ⟨hslot, -⟩ := Array.getElem?_eq_some_iff.1 hat
      rw [if_neg hne, Array.getElem?_push_lt hlt, Option.bind_some, Array.getElem?_push_lt hslot,
        ← Array.getElem?_eq_getElem hslot, hat]
  refine of_restores hperm (siftUp_spec _ _ _ _ hholds (by rw [Array.size_push]; omega) ⟨?_, ?_⟩)
  · intro c hc hcn hne
    rw [Array.size_push] at hcn
    have hlt := parent_lt hc
    rw [if_neg hne, if_neg (by omega)]
    exact horder c hc (by omega)
  · intro hpos c hc hcn hpar
    rw [Array.size_push] at hcn
    have hlt := parent_lt hc
    omega

end Heaped

/-! ## Offering a result -/

variable {limit : Nat} {top : TopK} {offered : List Ranked} {r : Ranked}

theorem WellFormed.isFull_iff (h : top.WellFormed limit) :
    top.isFull = true ↔ limit ≠ 0 ∧ limit ≤ top.toList.length := by
  rw [isFull, h.capacity_eq, toList, Array.length_toList]
  by_cases hlimit : limit = 0 <;> simp [hlimit]

/-- When there is no more room, the worst result stands in the slot that the
    root names, and only a better one would be kept. -/
theorem WellFormed.exists_worst (h : top.WellFormed limit) (hfull : top.isFull = true) :
    ∃ i worst, top.heap[0]? = some i ∧ top.slots[i]? = some worst ∧
      (∀ a ∈ top.toList, AtLeast a worst) ∧
      ∀ r, top.wouldEnter r.score r.index = worst.isWorse r := by
  obtain ⟨hlimit, hlength⟩ := h.isFull_iff.1 hfull
  rw [toList, Array.length_toList] at hlength
  obtain ⟨i, worst, hi, hworst, hleast⟩ := (h.heaped hlimit).exists_root (by omega)
  have hroot : top.root? = some worst := by rw [root?, hi, Option.bind_some, hworst]
  refine ⟨i, worst, hi, hworst, hleast, fun r => ?_⟩
  rw [wouldEnter, threshold, if_pos hfull, hroot, Option.map_some, Bool.eq_iff_iff, beq_iff_eq,
    rankOrder_eq_lt_iff]

theorem keeps_withExpected (limit expected : Nat) :
    Keeps limit (withExpected limit expected) [] := by
  refine ⟨⟨rfl, fun _ => Nat.zero_le _, fun _ => ⟨List.Perm.refl _, fun _ => ⟨0, 0, []⟩, ?_, ?_⟩⟩,
    [], List.Perm.refl _, ?_, fun h => absurd rfl h⟩
  · intro c hc
    cases hc
  · intro c _ hc
    cases hc
  · intro a ha
    cases ha

/-- A result that would not be kept is turned away. -/
theorem Keeps.skip (h : Keeps limit top offered)
    (henter : ¬ top.wouldEnter r.score r.index = true) : Keeps limit top (offered ++ [r]) := by
  obtain ⟨rest, hperm, hrest, hroom⟩ := h.split
  have hfull : top.isFull = true := by
    by_contra hfull
    rw [wouldEnter, threshold, if_neg hfull] at henter
    exact henter rfl
  obtain ⟨i, worst, -, -, hleast, hiff⟩ := h.wellFormed.exists_worst hfull
  rw [hiff, Bool.not_eq_true] at henter
  refine ⟨h.wellFormed, rest ++ [r], ?_, fun a ha b hb => ?_, fun _ => ?_⟩
  · rw [← List.append_assoc]
    exact hperm.append_right [r]
  · rcases List.mem_append.1 hb with hb | hb
    · exact hrest a ha b hb
    · rw [List.mem_singleton.1 hb]
      exact (hleast a ha).trans henter
  · exact h.wellFormed.isFull_iff.1 hfull

section replaceRoot
variable {i : Nat} {worst : Ranked} (hi : top.heap[0]? = some i)
  (hworst : top.slots[i]? = some worst)
include hi

theorem slots_replaceRoot (r : Ranked) :
    (top.replaceRoot r).slots = top.slots.setIfInBounds i r := by
  rw [TopK.replaceRoot, hi]

theorem toList_replaceRoot (r : Ranked) : (top.replaceRoot r).toList = top.toList.set i r := by
  rw [toList, slots_replaceRoot hi, Array.toList_setIfInBounds, toList]

include hworst in
/-- The result in the slot that the root names is the one that goes. -/
theorem cons_toList_replaceRoot_perm (r : Ranked) :
    worst :: (top.replaceRoot r).toList ~ r :: top.toList := by
  have hset := List.getD_set_perm_cons top.toList i r
  rwa [toList, Array.getElem?_toList, hworst, Option.getD_some, ← toList,
    ← toList_replaceRoot hi] at hset

end replaceRoot

/-- Without room, the worst result makes way for a better one. -/
theorem Keeps.replaceRoot (h : Keeps limit top offered) (hfull : top.isFull = true)
    (henter : top.wouldEnter r.score r.index = true) :
    Keeps limit (top.replaceRoot r) (offered ++ [r]) := by
  obtain ⟨rest, hperm, hrest, -⟩ := h.split
  obtain ⟨i, worst, hi, hworst, hleast, hiff⟩ := h.wellFormed.exists_worst hfull
  have hbetter : AtLeast r worst := .of_isWorse (hiff r ▸ henter)
  have hmem : worst ∈ top.toList := Array.mem_toList_iff.2 (Array.mem_of_getElem? hworst)
  have hwf := h.wellFormed
  refine ⟨⟨hwf.capacity_eq, fun hlimit => ?_, fun hlimit => ?_⟩, worst :: rest, ?_,
    fun a ha b hb => ?_, fun _ => ?_⟩
  · rw [slots_replaceRoot hi, Array.size_setIfInBounds]
    exact hwf.size_le hlimit
  · have hheap := (hwf.heaped hlimit).replace hi r
    rwa [TopK.replaceRoot, hi]
  · calc (top.replaceRoot r).toList ++ worst :: rest
      _ ~ worst :: (top.replaceRoot r).toList ++ rest := List.perm_middle
      _ ~ r :: top.toList ++ rest := (cons_toList_replaceRoot_perm hi hworst r).append_right rest
      _ ~ r :: offered := hperm.cons r
      _ ~ offered ++ [r] := (List.perm_append_singleton r offered).symm
  · have habove : AtLeast a worst ∧ (a ∈ top.toList ∨ a = r) := by
      rw [toList_replaceRoot hi] at ha
      rcases List.mem_or_eq_of_mem_set ha with ha | rfl
      · exact ⟨hleast a ha, Or.inl ha⟩
      · exact ⟨hbetter, Or.inr rfl⟩
    rcases List.mem_cons.1 hb with rfl | hb
    · exact habove.1
    · exact habove.1.trans (hrest worst hmem b hb)
  · rw [toList_replaceRoot hi, List.length_set]
    exact hwf.isFull_iff.1 hfull

/-- While there is room, nothing has been turned away. -/
theorem Keeps.append (h : Keeps limit top offered) (hfull : ¬ top.isFull = true) :
    Keeps limit (top.append r) (offered ++ [r]) := by
  obtain ⟨rest, hperm, -, hroom⟩ := h.split
  have hwf := h.wellFormed
  have hempty : rest = [] := by
    by_contra hne
    exact hfull (hwf.isFull_iff.2 (hroom hne))
  rw [hempty, List.append_nil] at hperm
  have hlist : (top.append r).toList = top.toList ++ [r] := Array.toList_push
  refine ⟨⟨hwf.capacity_eq, fun hlimit => ?_, fun hlimit => ?_⟩, [], ?_, ?_,
    fun hne => absurd rfl hne⟩
  · rw [hwf.isFull_iff, toList, Array.length_toList] at hfull
    rw [TopK.append, Array.size_push]
    omega
  · have hheap := (hwf.heaped hlimit).push r
    have hsome : top.capacity.isSome = true := by rw [hwf.capacity_eq, if_neg hlimit]; rfl
    rwa [TopK.append, if_pos hsome]
  · rw [hlist, List.append_nil]
    exact hperm.append_right [r]
  · intro a _ b hb
    cases hb

/-- Whether a result is kept or turned away, it has been offered. -/
theorem Keeps.insertWith {ε : Type} (h : Keeps limit top offered) (r : Ranked)
    (fill : List Nat → Except ε (List Nat)) (hfill : fill [] = .ok r.positions) :
    ∃ kept top', top.insertWith r.score r.index fill = .ok (kept, top') ∧
      Keeps limit top' (offered ++ [r]) := by
  rw [TopK.insertWith]
  by_cases henter : top.wouldEnter r.score r.index = true
  · rw [if_pos henter, hfill]
    refine ⟨true, _, rfl, ?_⟩
    split
    · exact h.replaceRoot ‹_› henter
    · exact h.append ‹_›
  · rw [if_neg henter]
    exact ⟨false, top, rfl, h.skip henter⟩

/-! ## Merging -/

/-- The best of all results offered are among those kept. -/
theorem best_of_keeps {tops : List TopK} {offered : List (List Ranked)}
    (h : List.Forall₂ (Keeps limit) tops offered) : ∀ others : List Ranked,
      DistinctKeys (others ++ offered.flatten) →
      best limit (others ++ offered.flatten) = best limit (others ++ tops.flatMap toList) := by
  induction h with
  | nil => exact fun _ _ => rfl
  | @cons top first tops offered htop _ ih =>
    intro others hkeys
    obtain ⟨rest, hperm, hrest, hroom⟩ := htop.split
    have hsplit : others ++ (first ++ offered.flatten) ~
        top.toList ++ rest ++ (others ++ offered.flatten) := by
      calc others ++ (first ++ offered.flatten)
        _ ~ first ++ (others ++ offered.flatten) := List.perm_append_comm_assoc ..
        _ ~ _ := hperm.symm.append_right _
    have hmove : top.toList ++ (others ++ offered.flatten) ~
        others ++ top.toList ++ offered.flatten := by
      rw [List.append_assoc]
      exact List.perm_append_comm_assoc ..
    rw [List.flatten_cons] at hkeys ⊢
    have hkept : DistinctKeys (top.toList ++ (others ++ offered.flatten)) :=
      (hkeys.perm hsplit).sublist ((List.sublist_append_left top.toList rest).append_right _)
    calc best limit (others ++ (first ++ offered.flatten))
      _ = best limit (top.toList ++ rest ++ (others ++ offered.flatten)) :=
        best_congr limit hkeys hsplit
      _ = best limit (top.toList ++ (others ++ offered.flatten)) :=
        best_append _ (hkeys.perm hsplit) hrest hroom
      _ = best limit (others ++ top.toList ++ offered.flatten) := best_congr limit hkept hmove
      _ = best limit (others ++ top.toList ++ tops.flatMap toList) := ih _ (hkept.perm hmove)
      _ = best limit (others ++ (top :: tops).flatMap toList) := by
        rw [List.flatMap_cons, List.append_assoc]

end FuzzyPath.TopK
