/-
  FuzzyPath — excluded texts and the score of a candidate.

  * `Scorer.excluding` is a scorer with other excluded texts; `score_excluding`:
    they have no part in the score of a candidate that mentions none of them;
  * `evaluate_of_mentions` and `evaluate_of_not_mentions`: a candidate that
    mentions one does not match, and any other is evaluated as if there were none.
-/
import FuzzyPath.Proofs.Query.Exclusions
import FuzzyPath.Proofs.Scoring.Criterion

namespace FuzzyPath

/-- One of some texts stands somewhere in the line, byte for byte. -/
def Mentions (line : String) (texts : List String) : Prop :=
  ∃ text ∈ texts, utf8 text <:+: utf8 line

instance (line : String) (texts : List String) : Decidable (Mentions line texts) :=
  inferInstanceAs (Decidable (∃ text ∈ texts, utf8 text <:+: utf8 line))

theorem Mentions.mono {line : String} {texts texts' : List String} (h : Mentions line texts)
    (hsub : texts ⊆ texts') : Mentions line texts' := by
  obtain ⟨text, htext, hinfix⟩ := h
  exact ⟨text, hsub htext, hinfix⟩

namespace Scorer

/-- The scorer with other excluded texts. -/
def excluding (s : Scorer) (texts : List String) : Scorer :=
  { s with query := s.query.excluding texts }

variable {s : Scorer} {c : Candidate} {texts : List String}

theorem new_excluding (q : Query) (w : Weights) (context : EditorContext) (texts : List String) :
    new (q.excluding texts) w context = (new q w context).excluding texts := by
  simp only [new, excluding, Query.excluding]

theorem isExcluded_excluding (s : Scorer) (c : Candidate) (texts : List String) :
    (s.excluding texts).isExcluded c = true ↔ Mentions c.text texts := by
  rw [isExcluded, List.any_eq_true]
  simp only [occursIn_iff]
  rfl

theorem columnsOf_excluding (s : Scorer) (texts : List String) (c : Candidate) (window : Span) :
    (s.excluding texts).columnsOf c window = s.columnsOf c window :=
  @columnsFrom_congr s (s.excluding texts) rfl rfl rfl _ _ _ _

theorem outcome_excluding (s : Scorer) (texts : List String) (c : Candidate)
    (columns : List Alignment.Column) (result : Option Alignment.Solution) :
    (s.excluding texts).outcome c columns result =
      (s.outcome c columns result).map id (·.excluding texts) := by
  cases result <;> rfl

/-- The excluded texts have no part in the score of a candidate without them. -/
theorem score_excluding (hs : s.isExcluded c = false) (h : ¬ Mentions c.text texts) :
    (s.excluding texts).score c = (s.score c).map (Prod.map id (·.excluding texts)) := by
  have hex : (s.excluding texts).isExcluded c = false := by
    rwa [← isExcluded_excluding s, Bool.not_eq_true] at h
  by_cases hcurrent : s.isCurrent c = true → s.context.matchCurrent = true
  · have hadmits : s.Admits c := ⟨hs, hcurrent⟩
    have hadmits' : (s.excluding texts).Admits c := ⟨hex, hcurrent⟩
    rw [score_of_admits hadmits, score_of_admits hadmits']
    by_cases hempty : s.query.isEmpty = true
    · rw [if_pos hempty, if_pos (show (s.excluding texts).query.isEmpty = true from hempty)]
      rfl
    · rw [if_neg hempty, if_neg (show ¬ (s.excluding texts).query.isEmpty = true from hempty)]
      have hwindow : (s.excluding texts).window c = s.window c := rfl
      rw [hwindow]
      cases s.window c with
      | none => rfl
      | some window =>
        simp only [columnsOf_excluding]
        cases s.columnsOf c window with
        | error fault => rfl
        | ok columns =>
          have hproblem : (s.excluding texts).problem columns = s.problem columns := rfl
          simp only [Except.bind, hproblem]
          cases Alignment.solve (s.problem columns) with
          | error fault => rfl
          | ok result => exact congrArg Except.ok (outcome_excluding s texts c columns result)
  · have hadmits : ¬ s.Admits c := fun h => hcurrent h.2
    have hadmits' : ¬ (s.excluding texts).Admits c := fun h => hcurrent h.2
    rw [score_of_not_admits hadmits, score_of_not_admits hadmits']
    rfl

/-- A candidate with an excluded text in it does not match. -/
theorem evaluate_of_mentions (h : Mentions c.text texts) :
    ((s.excluding texts).evaluate c).map Prod.fst = .ok none := by
  rw [← isExcluded_excluding s] at h
  have hadmits : ¬ (s.excluding texts).Admits c := fun hadmits => by
    rw [hadmits.1] at h
    cases h
  rw [evaluate, score_of_not_admits hadmits]
  rfl

/-- A candidate without excluded texts is evaluated as if there were none. -/
theorem evaluate_of_not_mentions (hs : s.isExcluded c = false) (h : ¬ Mentions c.text texts) :
    ((s.excluding texts).evaluate c).map Prod.fst = (s.evaluate c).map Prod.fst := by
  rw [evaluate, evaluate, score_excluding hs h]
  cases s.score c with
  | error fault => rfl
  | ok scored =>
    obtain ⟨score, t⟩ := scored
    cases score with
    | none => rfl
    | some score =>
      have hpositions : (t.excluding texts).positions = t.positions := rfl
      simp only [Except.map, Prod.map, bind, Except.bind, id, hpositions]
      cases t.positions <;> rfl

end Scorer

end FuzzyPath
