/-
  FuzzyPath — a scorer used again.

  * `Scorer.fresh` is a scorer without what it keeps of the last candidate;
  * `exists_score_of_evaluate`: what it keeps has no part in the next score, nor
    in the positions asked for after it.
-/
import FuzzyPath.Proofs.Fallible
import FuzzyPath.Proofs.Scoring.Criterion

namespace FuzzyPath.Scorer

/-- The scorer as it was before its first candidate. -/
def fresh (s : Scorer) : Scorer := { s with columns := #[], path := [] }

variable {s : Scorer} {c : Candidate}

theorem columnsOf_fresh (s : Scorer) (c : Candidate) (window : Span) :
    s.fresh.columnsOf c window = s.columnsOf c window :=
  @columnsFrom_congr s s.fresh rfl rfl rfl _ _ _ _

/-- A scorer gives the score that it gives at first, and keeps the positions
    that it keeps then. -/
theorem exists_score_of_fresh {r : Option Int} {t : Scorer} (h : s.fresh.score c = .ok (r, t)) :
    ∃ t', s.score c = .ok (r, t') ∧ t'.fresh = s.fresh ∧ t'.positions = t.positions := by
  by_cases hadmits : s.Admits c
  · have hfresh : s.fresh.Admits c := hadmits
    rw [score_of_admits hfresh] at h
    rw [score_of_admits hadmits]
    by_cases hempty : s.query.isEmpty = true
    · rw [if_pos (show s.fresh.query.isEmpty = true from hempty)] at h
      obtain ⟨rfl, rfl⟩ := Prod.mk.inj (Except.ok.inj h)
      rw [if_pos hempty]
      exact ⟨_, rfl, rfl, rfl⟩
    · rw [if_neg (show ¬ s.fresh.query.isEmpty = true from hempty)] at h
      rw [if_neg hempty]
      cases hwindow : s.window c with
      | none =>
        rw [show s.fresh.window c = none from hwindow] at h
        obtain ⟨rfl, rfl⟩ := Prod.mk.inj (Except.ok.inj h)
        exact ⟨_, rfl, rfl, rfl⟩
      | some window =>
        rw [show s.fresh.window c = some window from hwindow] at h
        obtain ⟨columns, hcolumns, h⟩ := bind_eq_ok h
        obtain ⟨result, hresult, hout⟩ := map_eq_ok h
        rw [columnsOf_fresh] at hcolumns
        have hsolve : Alignment.solve (s.problem columns) = .ok result := hresult
        refine ⟨(s.outcome c columns result).2, ?_, ?_⟩
        · simp only [hcolumns, Except.bind, hsolve, Except.map]
          rw [← (Prod.mk.inj hout).1]
          cases result <;> rfl
        · rw [← (Prod.mk.inj hout).2]
          cases result <;> exact ⟨rfl, rfl⟩
  · have hfresh : ¬ s.fresh.Admits c := hadmits
    rw [score_of_not_admits hfresh] at h
    obtain ⟨rfl, rfl⟩ := Prod.mk.inj (Except.ok.inj h)
    exact ⟨_, score_of_not_admits hadmits, rfl, rfl⟩

/-- A candidate that can be evaluated at first can be at any time, with the same
    score and positions. -/
theorem exists_score_of_evaluate {r : Option MatchOutcome} {t : Scorer}
    (h : s.fresh.evaluate c = .ok (r, t)) :
    ∃ t', s.score c = .ok (r.map (·.score), t') ∧ t'.fresh = s.fresh ∧
      ∀ m, r = some m → t'.positions = .ok m.positions := by
  obtain ⟨⟨score, u⟩, hscore, h⟩ := bind_eq_ok h
  obtain ⟨t', ht', hfresh, hpositions⟩ := exists_score_of_fresh hscore
  cases score with
  | none =>
    obtain ⟨rfl, -⟩ := Prod.mk.inj (Except.ok.inj h)
    exact ⟨t', ht', hfresh, fun m hm => by cases hm⟩
  | some score =>
    obtain ⟨positions, hu, h⟩ := bind_eq_ok h
    obtain ⟨rfl, -⟩ := Prod.mk.inj (Except.ok.inj h)
    refine ⟨t', ht', hfresh, fun m hm => ?_⟩
    rw [hpositions, hu, ← Option.some.inj hm]

end FuzzyPath.Scorer
