/-
  FuzzyPath — alignments as the table builds them: unit by unit, with the
  running worth at hand.

  * a `Bounded` unit is a query unit with the first and the last column it can
    lie on;
  * `Trail` are the enduring alignments of some units within their bounds, last
    unit first, each with its worth;
  * `trail_iff` says that this is what they are.
-/
import FuzzyPath.Proofs.Alignment.Worth

namespace FuzzyPath.Alignment

/-- A query unit with the bounds of its columns. -/
abbrev BoundedUnit := TextUnit × Nat × Nat

namespace BoundedUnit

/-- Whether a column lies within the bounds of a unit. -/
def Bounds (u : BoundedUnit) (j : Nat) : Prop := u.2.1 ≤ j ∧ j ≤ u.2.2

/-- The query of some units given last unit first. -/
def query (units : List BoundedUnit) : List TextUnit := units.reverse.map Prod.fst

@[simp] theorem query_cons (u : BoundedUnit) (units : List BoundedUnit) :
    query (u :: units) = query units ++ [u.1] := by
  simp [query]

@[simp] theorem length_query (units : List BoundedUnit) : (query units).length = units.length := by
  simp [query]

end BoundedUnit

open BoundedUnit

/-- A path, last column first, that puts units, last unit first, on columns
    within their bounds; its running worth stays above `unreached`. -/
inductive Trail (p : Problem) : List BoundedUnit → List Nat → Int → Prop
  | start {u j c} : u.Bounds j → p.columns[j]? = some c → p.accepts u.1 c = true →
      Trail p [u] [j] (p.gain u.1 c)
  | next {u units j k path v c} : Trail p units (k :: path) v → k < j → u.Bounds j →
      p.columns[j]? = some c → p.accepts u.1 c = true → unreached < v + p.step k j →
      Trail p (u :: units) (j :: k :: path) (v + p.step k j + p.gain u.1 c)

namespace Trail
variable {p : Problem} {units : List BoundedUnit} {path : List Nat} {v : Int}

theorem length_eq (h : Trail p units path v) : units.length = path.length := by
  induction h with
  | start => rfl
  | next _ _ _ _ _ _ ih => simpa using ih

theorem path_ne_nil (h : Trail p units path v) : path ≠ [] := by
  cases h <;> simp

theorem embeds (h : Trail p units path v) :
    Embeds p.accepts p.columns.toList (query units) path.reverse := by
  induction h with
  | @start u j c _ hc hq =>
    exact ⟨by simp, by simpa [query] using ⟨c, hc, hq⟩⟩
  | @next u units j k path v c _ hkj _ hc hq _ ih =>
    refine ⟨?_, ?_⟩
    · have hinc := ih.increasing
      rw [List.pairwise_reverse] at hinc ⊢
      refine List.pairwise_cons.2 ⟨fun i hi => ?_, hinc⟩
      rcases List.mem_cons.1 hi with rfl | hi
      · exact hkj
      · exact ((List.pairwise_cons.1 hinc).1 i hi).trans hkj
    · rw [query_cons, List.reverse_cons]
      exact List.rel_append ih.matching (.cons ⟨c, by simpa using hc, hq⟩ .nil)

theorem worth_eq (h : Trail p units path v) : p.worth (query units) path.reverse = v := by
  induction h with
  | start _ hc _ => simp [query, Problem.gainAt_of_getElem? hc]
  | @next u units j k path v c hprev _ _ hc _ _ ih =>
    have hlen : (query units).length = path.reverse.length + 1 := by simpa using hprev.length_eq
    have hcut := Problem.worth_append (p := p) [u.1] k j [] hlen
    rw [List.reverse_cons] at ih
    rw [ih, Problem.worth_singleton, Problem.gainAt_of_getElem? hc] at hcut
    simpa using hcut

theorem endures (h : Trail p units path v) : p.Endures (query units) path.reverse := by
  induction h with
  | start =>
    intro before k j after hcut
    have := congrArg List.length hcut
    simp at this; omega
  | @next u units j k path v c hprev _ _ _ _ hv ih =>
    intro before k' j' after hcut
    have hlen : (query units).length = path.length + 1 := by simpa using hprev.length_eq
    have hworth := hprev.worth_eq
    rw [List.reverse_cons] at hworth ih
    rw [query_cons]
    rcases List.eq_nil_or_concat after with rfl | ⟨after, i, rfl⟩
    · -- The step at hand is the last one.
      obtain ⟨rfl, rfl, rfl⟩ : before = path.reverse ∧ k' = k ∧ j' = j := by
        have hcut' : (path.reverse ++ [k]) ++ [j] = (before ++ [k']) ++ [j'] := by simpa using hcut
        obtain ⟨hfront, hj⟩ := List.append_inj' hcut' rfl
        obtain ⟨hbefore, hk⟩ := List.append_inj' hfront rfl
        exact ⟨hbefore.symm, by simpa using hk.symm, by simpa using hj.symm⟩
      rw [List.take_left' (by simpa using hlen), hworth]
      exact hv
    · have hcut' : (path.reverse ++ [k]) ++ [j] = (before ++ k' :: j' :: after) ++ [i] := by
        simpa using hcut
      have hfront := (List.append_inj' hcut' rfl).1
      rw [List.take_append_of_le_length]
      · exact ih before k' j' after hfront
      · have := congrArg List.length hfront
        simp at this; omega

theorem bounds (h : Trail p units path v) : List.Forall₂ Bounds units path := by
  induction h with
  | start hu => exact .cons hu .nil
  | next _ _ hu _ _ _ ih => exact .cons hu ih

end Trail

/-- An alignment within the bounds that endures is a trail. -/
theorem trail_of_endures {p : Problem} : ∀ {units : List BoundedUnit} {path : List Nat},
    units ≠ [] → Embeds p.accepts p.columns.toList (query units) path.reverse →
      List.Forall₂ Bounds units path → p.Endures (query units) path.reverse →
      Trail p units path (p.worth (query units) path.reverse)
  | [], _, hne, _, _, _ => absurd rfl hne
  | [u], [j], _, hemb, .cons hu .nil, _ => by
    obtain ⟨c, hc, hq⟩ := (List.forall₂_cons.1 hemb.matching).1
    rw [Array.getElem?_toList] at hc
    have := Trail.start hu hc hq
    simpa [query, Problem.gainAt_of_getElem? hc] using this
  | u :: u' :: units, j :: k :: path, _, hemb, .cons hu hbounds, hend => by
    obtain ⟨hinc, hmatch⟩ := hemb
    rw [List.pairwise_reverse] at hinc
    obtain ⟨hgt, hinc'⟩ := List.pairwise_cons.1 hinc
    rw [← List.forall₂_reverse_iff] at hmatch
    simp only [query, ← List.map_reverse, List.reverse_reverse, List.map_cons] at hmatch
    obtain ⟨⟨c, hc, hq⟩, hmatch'⟩ := List.forall₂_cons.1 hmatch
    have hlen : (query (u' :: units)).length = path.reverse.length + 1 := by
      simpa using hbounds.length_eq
    have hsplit : query (u :: u' :: units) = query (u' :: units) ++ [u.1] := by simp
    have hpath : (j :: k :: path).reverse = path.reverse ++ k :: j :: [] := by simp
    have hcut := Problem.worth_append (p := p) [u.1] k j [] hlen
    rw [hsplit, hpath] at hend ⊢
    rw [Array.getElem?_toList] at hc
    rw [Problem.worth_singleton, Problem.gainAt_of_getElem? hc] at hcut
    rw [hcut, ← List.reverse_cons]
    refine .next (trail_of_endures (by simp) ⟨by rwa [List.pairwise_reverse], ?_⟩ hbounds ?_)
      (hgt k (by simp)) hu hc hq ?_
    · rw [← List.forall₂_reverse_iff]
      simpa [query, ← List.map_reverse] using hmatch'
    · intro before k' j' after hback
      rw [List.reverse_cons] at hback
      have hshort : before.length + 1 ≤ (query (u' :: units)).length := by
        have hsame := congrArg List.length hback
        simp only [List.length_append, List.length_cons, List.length_nil] at hsame
        omega
      have := hend before k' j' (after ++ [j]) (by simpa using congrArg (· ++ [j]) hback)
      rwa [List.take_append_of_le_length hshort] at this
    · have := hend path.reverse k j [] rfl
      rwa [List.take_left' hlen, ← List.reverse_cons] at this

/-- The trails are the enduring alignments within the bounds, with their worth. -/
theorem trail_iff {p : Problem} {units : List BoundedUnit} {path : List Nat} {v : Int}
    (hne : units ≠ []) : Trail p units path v ↔
      Embeds p.accepts p.columns.toList (query units) path.reverse ∧
        List.Forall₂ Bounds units path ∧ p.Endures (query units) path.reverse ∧
        p.worth (query units) path.reverse = v := by
  constructor
  · intro h; exact ⟨h.embeds, h.bounds, h.endures, h.worth_eq⟩
  · rintro ⟨hemb, hbounds, hend, rfl⟩
    exact trail_of_endures hne hemb hbounds hend

end FuzzyPath.Alignment
