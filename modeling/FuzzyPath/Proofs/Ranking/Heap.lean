/-
  FuzzyPath — the heap of the worst results.

  * `Holds` says which result stands at each place of a heap, and `HeapOrder`
    that none of them outranks one below it;
  * `UpOrder` and `DownOrder` are the order with one place where it may fail,
    and `siftUp_spec` and `siftDown_spec` restore it from there;
  * `HeapOrder.root`: the result at the root is the worst.
-/
import FuzzyPath.Ranking.TopK
import FuzzyPath.Proofs.Ranking.Order

namespace FuzzyPath.TopK

open Ranked
open scoped List

/-! ## Places -/

/-- The place above another one. -/
def parent (c : Nat) : Nat := (c - 1) / 2

/-- The results at the places of a heap. -/
def Holds (slots : Array Ranked) (heap : Array Nat) (f : Nat → Ranked) : Prop :=
  ∀ c < heap.size, heap[c]?.bind (slots[·]?) = some (f c)

/-- At each place stands a result that the one above does not outrank. -/
def HeapOrder (f : Nat → Ranked) (n : Nat) : Prop :=
  ∀ c, 0 < c → c < n → AtLeast (f c) (f (parent c))

/-- The order, but the result at `pos` may be worse than those above it. -/
structure UpOrder (f : Nat → Ranked) (n pos : Nat) : Prop where
  off : ∀ c, 0 < c → c < n → c ≠ pos → AtLeast (f c) (f (parent c))
  skip : 0 < pos → ∀ c, 0 < c → c < n → parent c = pos → AtLeast (f c) (f (parent pos))

/-- The order, but the result at `pos` may be better than those below it. -/
structure DownOrder (f : Nat → Ranked) (n pos : Nat) : Prop where
  off : ∀ c, 0 < c → c < n → parent c ≠ pos → AtLeast (f c) (f (parent c))
  skip : 0 < pos → ∀ c, 0 < c → c < n → parent c = pos → AtLeast (f c) (f (parent pos))

variable {slots : Array Ranked} {heap : Array Nat} {f : Nat → Ranked} {n pos : Nat}

theorem parent_lt {c : Nat} (h : 0 < c) : parent c < c := by rw [parent]; omega

theorem parent_eq_iff {c : Nat} (h : 0 < c) :
    parent c = pos ↔ c = 2 * pos + 1 ∨ c = 2 * pos + 2 := by
  rw [parent]; omega

theorem Holds.worseAt_eq (h : Holds slots heap f) {a b : Nat} (ha : a < heap.size)
    (hb : b < heap.size) : worseAt slots heap a b = (f a).isWorse (f b) := by
  rw [worseAt, h a ha, h b hb]

/-- The results at two places change places. -/
structure Swaps (f g : Nat → Ranked) (i j : Nat) : Prop where
  left : g i = f j
  right : g j = f i
  other : ∀ c, c ≠ i → c ≠ j → g c = f c

theorem Holds.swap (h : Holds slots heap f) {i j : Nat} (hi : i < heap.size) (hj : j < heap.size) :
    ∃ g, Holds slots (heap.swapIfInBounds i j) g ∧ Swaps f g i j := by
  refine ⟨fun c => if c = i then f j else if c = j then f i else f c, fun c hc => ?_, ?_, ?_, ?_⟩
  · rw [Array.getElem?_eq_getElem hc]
    rw [Array.size_swapIfInBounds] at hc
    have hget : ∀ a (ha : a < heap.size), slots[heap[a]]? = some (f a) := fun a ha => by
      simpa [ha] using h a ha
    dsimp only
    rcases eq_or_ne c i with rfl | hci
    · rw [Option.bind_some, Array.getElem_swapIfInBounds_left hj, if_pos rfl, hget]
    · rw [if_neg hci]
      rcases eq_or_ne c j with rfl | hcj
      · rw [Option.bind_some, Array.getElem_swapIfInBounds_right hi, if_pos rfl, hget]
      · rw [Option.bind_some, Array.getElem_swapIfInBounds_of_ne_of_ne hci hcj, if_neg hcj, hget]
  · exact if_pos rfl
  · by_cases hij : j = i
    · rw [if_pos hij, hij]
    · rw [if_neg hij, if_pos rfl]
  · intro c hci hcj
    rw [if_neg hci, if_neg hcj]

theorem swapIfInBounds_perm (heap : Array Nat) (i j : Nat) :
    (heap.swapIfInBounds i j).toList ~ heap.toList := by
  rw [Array.swapIfInBounds_def]
  split
  · split
    · exact (Array.swap_perm _ _).toList
    · exact List.Perm.refl _
  · exact List.Perm.refl _

/-- The worst result is at the root. -/
theorem HeapOrder.root (h : HeapOrder f n) : ∀ c < n, AtLeast (f c) (f 0) := by
  intro c
  induction c using Nat.strongRecOn with
  | _ c ih =>
    intro hc
    cases c with
    | zero => exact AtLeast.refl _
    | succ c =>
      have hlt := parent_lt (Nat.succ_pos c)
      exact (h _ (Nat.succ_pos c) hc).trans (ih _ hlt (hlt.trans hc))

/-! ## Sifting up -/

/-- A result that is worse than the one above it moves up. -/
theorem UpOrder.swap (h : UpOrder f n pos) (hpos : 0 < pos) (hn : pos < n)
    (hworse : (f pos).isWorse (f (parent pos)) = true) {g : Nat → Ranked}
    (hg : Swaps f g pos (parent pos)) : UpOrder g n (parent pos) := by
  have hlt := parent_lt hpos
  have hup : AtLeast (f (parent pos)) (f pos) := .of_isWorse hworse
  refine ⟨fun c hc hcn hne => ?_, fun hpar c hc hcn hcpar => ?_⟩
  · rcases eq_or_ne c pos with rfl | hcpos
    · rw [hg.left, hg.right]; exact hup
    · rw [hg.other c hcpos hne]
      rcases eq_or_ne (parent c) pos with hbelow | hbelow
      · rw [hbelow, hg.left]; exact h.skip hpos c hc hcn hbelow
      · rcases eq_or_ne (parent c) (parent pos) with hbeside | hbeside
        · rw [hbeside, hg.right]
          exact (hbeside ▸ h.off c hc hcn hcpos).trans hup
        · rw [hg.other _ hbelow hbeside]; exact h.off c hc hcn hcpos
  · have hgrand := parent_lt hpar
    have habove := h.off _ hpar (hlt.trans hn) (by omega)
    rw [hg.other (parent (parent pos)) (by omega) (by omega)]
    rcases eq_or_ne c pos with rfl | hcpos
    · rw [hg.left]; exact habove
    · have hbelow := parent_lt hc
      rw [hg.other c hcpos (by omega)]
      exact (hcpar ▸ h.off c hc hcn hcpos).trans habove

/-- A result that is no worse than the one above it stays. -/
theorem UpOrder.heapOrder (h : UpOrder f n pos)
    (hpos : 0 < pos → AtLeast (f pos) (f (parent pos))) : HeapOrder f n := by
  intro c hc hcn
  rcases eq_or_ne c pos with rfl | hne
  · exact hpos hc
  · exact h.off c hc hcn hne

/-- A heap in order that holds the slot numbers of another one. -/
def Restores (slots : Array Ranked) (heap heap' : Array Nat) : Prop :=
  heap'.toList ~ heap.toList ∧ ∃ f, Holds slots heap' f ∧ HeapOrder f heap'.size

theorem Restores.trans_swap {heap' : Array Nat} {i j : Nat}
    (h : Restores slots (heap.swapIfInBounds i j) heap') : Restores slots heap heap' :=
  ⟨h.1.trans (swapIfInBounds_perm heap i j), h.2⟩

theorem siftUp_spec (slots : Array Ranked) (heap : Array Nat) (pos : Nat) :
    ∀ f, Holds slots heap f → pos < heap.size → UpOrder f heap.size pos →
      Restores slots heap (siftUp slots heap pos) := by
  induction heap, pos using siftUp.induct slots with
  | case1 heap =>
    intro f hf _ horder
    rw [siftUp, if_pos rfl]
    exact ⟨List.Perm.refl _, f, hf, horder.heapOrder fun h => absurd h (lt_irrefl 0)⟩
  | case2 heap pos hpos par hworse ih =>
    intro f hf hlt horder
    have hpar : par < pos := parent_lt (Nat.pos_of_ne_zero hpos)
    rw [siftUp, if_neg hpos]
    dsimp only
    rw [if_pos hworse]
    rw [hf.worseAt_eq hlt (hpar.trans hlt)] at hworse
    obtain ⟨g, hg, hswaps⟩ := hf.swap hlt (hpar.trans hlt)
    have hup := horder.swap (Nat.pos_of_ne_zero hpos) hlt hworse hswaps
    refine (ih g hg ?_ ?_).trans_swap
    · rw [Array.size_swapIfInBounds]; exact hpar.trans hlt
    · rw [Array.size_swapIfInBounds]; exact hup
  | case3 heap pos hpos par hbetter =>
    intro f hf hlt horder
    have hpar : par < pos := parent_lt (Nat.pos_of_ne_zero hpos)
    rw [siftUp, if_neg hpos]
    dsimp only
    rw [if_neg hbetter]
    rw [hf.worseAt_eq hlt (hpar.trans hlt), Bool.not_eq_true] at hbetter
    exact ⟨List.Perm.refl _, f, hf, horder.heapOrder fun _ => hbetter⟩

/-! ## Sifting down -/

/-- The worst among a result and those below it. -/
structure IsWorst (f : Nat → Ranked) (n pos worst : Nat) : Prop where
  place : worst = pos ∨ 0 < worst ∧ worst < n ∧ parent worst = pos
  above : AtLeast (f pos) (f worst)
  below : ∀ c, 0 < c → c < n → parent c = pos → AtLeast (f c) (f worst)

/-- The worse of the results at two places, the second of which there may not
    be. -/
theorem exists_worse (hf : Holds slots heap f) {w : Nat} (hw : w < heap.size) (c : Nat) :
    ∃ w', (if c < heap.size ∧ worseAt slots heap c w then c else w) = w' ∧
      (w' = w ∨ w' = c ∧ c < heap.size) ∧ AtLeast (f w) (f w') ∧
      (c < heap.size → AtLeast (f c) (f w')) := by
  by_cases hc : c < heap.size ∧ worseAt slots heap c w = true
  · refine ⟨c, if_pos hc, Or.inr ⟨rfl, hc.1⟩, ?_, fun _ => AtLeast.refl _⟩
    rw [hf.worseAt_eq hc.1 hw] at hc
    exact .of_isWorse hc.2
  · refine ⟨w, if_neg hc, Or.inl rfl, AtLeast.refl _, fun hlt => ?_⟩
    rw [hf.worseAt_eq hlt hw] at hc
    simpa [hlt, AtLeast] using hc

theorem isWorst_worstChild (hf : Holds slots heap f) (hpos : pos < heap.size) :
    IsWorst f heap.size pos (worstChild slots heap pos) := by
  obtain ⟨w, hw, hplace, habove, hleft⟩ := exists_worse hf hpos (2 * pos + 1)
  have hwlt : w < heap.size := by omega
  obtain ⟨w', hw', hplace', habove', hright⟩ := exists_worse hf hwlt (2 * pos + 2)
  have heq : worstChild slots heap pos = w' := by rw [worstChild, hw, hw']
  rw [heq]
  refine ⟨?_, habove.trans habove', fun c hc hcn hcpar => ?_⟩
  · rcases hplace' with rfl | ⟨rfl, hlt⟩
    · rcases hplace with rfl | ⟨rfl, hlt⟩
      · exact Or.inl rfl
      · exact Or.inr ⟨by omega, hlt, by rw [parent]; omega⟩
    · exact Or.inr ⟨by omega, hlt, by rw [parent]; omega⟩
  · rcases (parent_eq_iff hc).1 hcpar with rfl | rfl
    · exact (hleft hcn).trans habove'
    · exact hright hcn

/-- A result moves down past the worst of those below it. -/
theorem DownOrder.swap (h : DownOrder f n pos) {worst : Nat} (hworst : IsWorst f n pos worst)
    (hlt : pos < worst) {g : Nat → Ranked} (hg : Swaps f g pos worst) : DownOrder g n worst := by
  obtain ⟨hpos, hn, hparent⟩ := hworst.place.resolve_left (by omega)
  refine ⟨fun c hc hcn hne => ?_, fun _ c hc hcn hcpar => ?_⟩
  · rcases eq_or_ne (parent c) pos with hcpar | hcpar
    · rw [hcpar, hg.left]
      rcases eq_or_ne c worst with rfl | hcw
      · rw [hg.right]; exact hworst.above
      · have hpc := parent_lt hc
        rw [hg.other c (by omega) hcw]
        exact hworst.below c hc hcn hcpar
    · rw [hg.other (parent c) hcpar hne]
      rcases eq_or_ne c pos with rfl | hcpos
      · rw [hg.left]; exact h.skip hc worst hpos hn hparent
      · rw [hg.other c hcpos (by rintro rfl; exact hcpar hparent)]
        exact h.off c hc hcn hcpar
  · have hpc := parent_lt hc
    rw [hparent, hg.left, hg.other c (by omega) (by omega)]
    exact hcpar ▸ h.off c hc hcn (by omega)

/-- If none of those below is worse, the result stays. -/
theorem DownOrder.heapOrder (h : DownOrder f n pos) (hworst : IsWorst f n pos pos) :
    HeapOrder f n := by
  intro c hc hcn
  rcases eq_or_ne (parent c) pos with hcpar | hcpar
  · rw [hcpar]; exact hworst.below c hc hcn hcpar
  · exact h.off c hc hcn hcpar

theorem siftDown_spec (slots : Array Ranked) (heap : Array Nat) (pos : Nat) :
    ∀ f, Holds slots heap f → pos < heap.size → DownOrder f heap.size pos →
      Restores slots heap (siftDown slots heap pos) := by
  induction heap, pos using siftDown.induct slots with
  | case1 heap pos worst hlow ih =>
    intro f hf hlt horder
    rw [siftDown, if_pos hlow]
    obtain ⟨g, hg, hswaps⟩ := hf.swap hlt hlow.2
    have hdown := horder.swap (isWorst_worstChild hf hlt) hlow.1 hswaps
    refine (ih g hg ?_ ?_).trans_swap
    · rw [Array.size_swapIfInBounds]; exact hlow.2
    · rw [Array.size_swapIfInBounds]; exact hdown
  | case2 heap pos worst hstay =>
    intro f hf hlt horder
    rw [siftDown, if_neg hstay]
    have hworst := isWorst_worstChild hf hlt
    have hpos : worstChild slots heap pos = pos := by
      rcases hworst.place with heq | ⟨hpos, hn, hparent⟩
      · exact heq
      · have := parent_lt hpos
        exact absurd ⟨by omega, hn⟩ hstay
    rw [hpos] at hworst
    exact ⟨List.Perm.refl _, f, hf, horder.heapOrder hworst⟩

end FuzzyPath.TopK
