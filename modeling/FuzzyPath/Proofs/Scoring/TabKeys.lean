/-
  FuzzyPath — lines of which only a part is matched.

  In the tab modes a line is matched on what stands before one of its tabs.
  What follows has no part in the result.

  * `Candidate.SameKey` candidates are alike but for what is outside of their
    keys;
  * `Query.parse_untabbed`: queries of one text differ in nothing that is used
    in matching a key;
  * `evaluate_of_sameKey`: candidates of the same key have the same result;
  * `evaluate_tabMode`: a line in a tab mode has the result of its key on its
    own.
-/
import FuzzyPath.Proofs.Scoring.FilenameOnly

namespace FuzzyPath

/-! ## Candidates -/

/-- `c'` has the key of `c`, at the same place and of the same style. -/
structure Candidate.SameKey (c c' : Candidate) : Prop where
  key : c'.key = c.key
  keySpan : c'.keySpan = c.keySpan
  style : c'.style = c.style

namespace Candidate.SameKey
variable {c c' : Candidate}

theorem components (h : SameKey c c') : c'.components = c.components := by
  rw [Candidate.components, h.key, h.style, ← Candidate.components]

theorem directoryNames (h : SameKey c c') : c'.directoryNames = c.directoryNames := by
  rw [Candidate.directoryNames, h.components, h.key, ← Candidate.directoryNames]

theorem filename (h : SameKey c c') : c'.filename = c.filename := by
  rw [Candidate.filename, h.components, h.key, ← Candidate.filename]

end Candidate.SameKey

/-- The key of a line is a line with the same key. -/
theorem MatchMode.IsKey.sameKey {mode : MatchMode} {line key : String} (h : mode.IsKey line key)
    (style : PathStyle) (i j : Nat) :
    (Candidate.ofLine i line mode style).SameKey (.ofLine j key .fullLine style) := by
  have hself : fullLine.IsKey key key := rfl
  exact ⟨hself.slice_eq.trans h.slice_eq.symm, (key_of_isKey hself).trans (key_of_isKey h).symm,
    rfl⟩

/-! ## Queries -/

/-- The query in another match mode, with other excluded texts. -/
def Query.inMode (q : Query) (mode : MatchMode) (texts : List String) : Query :=
  { q with matchMode := mode, excluded := texts }

/-- A tab mode takes the key for what a whole line is taken for, so that the same
    text makes the same query. -/
theorem Query.parse_untabbed {raw raw' delimiter : String} {settings : QuerySettings}
    {q q' : Query} (htab : settings.matchMode = .firstNonTab ∨ settings.matchMode = .untilLastTab)
    (h : parse raw settings = .ok q)
    (h' : parse raw' { settings with matchMode := .fullLine, delimiter := delimiter } = .ok q')
    (htext : q'.text = q.text) : q' = q.inMode .fullLine q'.excluded := by
  have hkind : keyKindOf { settings with matchMode := .fullLine, delimiter := delimiter } =
      keyKindOf settings := by
    rcases htab with htab | htab <;>
    · rw [keyKindOf, keyKindOf, htab]
      cases settings.isPath <;> rfl
  rw [parse, hkind] at h'
  rw [parse] at h
  generalize split raw' delimiter = parts' at h'
  generalize split raw settings.delimiter = parts at h
  obtain ⟨kind, hkind, h⟩ := bind_eq_ok h
  rw [hkind] at h'
  obtain rfl := Except.ok.inj h
  obtain rfl := Except.ok.inj h'
  have htext' : parts'.1 = parts.1 := htext
  simp only [inMode, htext']

namespace Scorer

/-- The scorer for a query in another match mode, with other excluded texts. -/
def inMode (s : Scorer) (mode : MatchMode) (texts : List String) : Scorer :=
  { s with query := s.query.inMode mode texts }

variable {s : Scorer} {c c' : Candidate} {mode : MatchMode} {texts : List String}

theorem new_inMode (q : Query) (w : Weights) (context : EditorContext) (mode : MatchMode)
    (texts : List String) : new (q.inMode mode texts) w context =
      (new q w context).inMode mode texts := by
  simp only [new, inMode, Query.inMode]

/-! ## Results of a key -/

section SameKey
variable (h : c.SameKey c')
include h

theorem window_of_sameKey : (s.inMode mode texts).window c' = s.window c := by
  have hkind : (s.inMode mode texts).query.keyKind = s.query.keyKind := rfl
  rw [window, window, hkind, h.components, h.keySpan]

theorem columnsOf_of_sameKey (window : Span) :
    (s.inMode mode texts).columnsOf c' window = s.columnsOf c window := by
  have hbefore : (s.inMode mode texts).classBefore c' window = s.classBefore c window := by
    rw [classBefore, classBefore, h.key]
    rfl
  have hmode : (s.inMode mode texts).query.textMode = s.query.textMode := rfl
  have hkind : (s.inMode mode texts).query.keyKind = s.query.keyKind := rfl
  rw [columnsOf, columnsOf, hbefore, hmode, hkind, h.key, h.keySpan, h.components]
  exact @columnsFrom_congr s (s.inMode mode texts) rfl rfl rfl _ _ _ _

theorem adjusted_of_sameKey (raw : Int) (unmatched : Nat) :
    (s.inMode mode texts).adjusted c' raw unmatched = s.adjusted c raw unmatched := by
  have hproximity : (s.inMode mode texts).proximityPenalty c' = s.proximityPenalty c := by
    rw [proximityPenalty, proximityPenalty, h.directoryNames]
    rfl
  have hwords : (s.inMode mode texts).sharedWordBonus c' = s.sharedWordBonus c := by
    rw [sharedWordBonus, sharedWordBonus, h.filename]
    rfl
  rw [adjusted, adjusted, hproximity, hwords]
  rfl

theorem reported_of_sameKey (hc : s.isCurrent c = false) (hc' : s.isCurrent c' = false)
    (columns : List Alignment.Column) (result : Option Alignment.Solution) :
    (s.inMode mode texts).reported c' columns result = s.reported c columns result := by
  cases result with
  | none => rfl
  | some sol =>
    have hcurrent : (s.inMode mode texts).isCurrent c' = false := hc'
    rw [reported, reported, penalized, penalized, hcurrent, hc, adjusted_of_sameKey h]
    rfl

/-- Candidates of the same key have the same result, unless something is excluded
    or one of them is the current file. -/
theorem evaluate_of_sameKey (hadmits : s.Admits c) (hadmits' : (s.inMode mode texts).Admits c')
    (hc : s.isCurrent c = false) (hc' : s.isCurrent c' = false) :
    (s.evaluate c).map Prod.fst = ((s.inMode mode texts).evaluate c').map Prod.fst := by
  by_cases hquery : s.query.units = []
  · have hcurrent : (s.inMode mode texts).isCurrent c' = false := hc'
    rw [evaluate_of_empty hadmits hquery, evaluate_of_empty hadmits' hquery, penalized, penalized,
      hc, hcurrent]
    rfl
  · rw [evaluate_of_admits hadmits hquery, evaluate_of_admits hadmits' hquery,
      window_of_sameKey h]
    cases s.window c with
    | none => rfl
    | some window =>
      have hproblem (columns : List Alignment.Column) :
          (s.inMode mode texts).problem columns = s.problem columns := rfl
      have hreported (columns : List Alignment.Column) :
          (s.inMode mode texts).reported c' columns = s.reported c columns :=
        funext (reported_of_sameKey h hc hc' columns)
      simp only [columnsOf_of_sameKey h, hproblem, hreported]

end SameKey

/-- A line in a tab mode has the same result as its key, matched as a whole line
    against a query of the same text, unless something is excluded or one of them
    is the current file. -/
theorem evaluate_tabMode {raw raw' delimiter : String} {settings : QuerySettings} {q q' : Query}
    (htab : settings.matchMode = .firstNonTab ∨ settings.matchMode = .untilLastTab)
    (hq : Query.parse raw settings = .ok q)
    (hq' : Query.parse raw' { settings with matchMode := .fullLine, delimiter := delimiter } =
      .ok q')
    (htext : q'.text = q.text) (hsub : q'.excluded ⊆ q.excluded) (weights : Weights)
    {context : EditorContext} {line key : String} (hkey : settings.matchMode.IsKey line key)
    (hincluded : ∀ text ∈ q.excluded, ¬ utf8 text <:+: utf8 line)
    (hline : context.currentFile ≠ some line) (hother : context.currentFile ≠ some key)
    (i j : Nat) :
    ((new q weights context).evaluate
        (.ofLine i line settings.matchMode context.style)).map Prod.fst =
      ((new q' weights context).evaluate (.ofLine j key .fullLine context.style)).map Prod.fst := by
  have hmode : q.matchMode = settings.matchMode := by
    rw [Query.parse] at hq
    obtain ⟨kind, -, hq⟩ := bind_eq_ok hq
    obtain rfl := Except.ok.inj hq
    rfl
  have hinfix : utf8 key <:+: utf8 line := by
    obtain ⟨rest, rfl⟩ := hkey.exists_append
    rw [utf8_append]
    exact (List.prefix_append _ _).isInfix
  rw [Query.parse_untabbed htab hq hq' htext, new_inMode, ← hmode]
  refine evaluate_of_sameKey (hmode ▸ hkey.sameKey context.style i j) ?_ ?_ ?_ ?_
  · exact ((new q weights context).admits_iff i line).2
      ⟨hincluded, fun h => absurd h hline⟩
  · exact (((new q weights context).inMode .fullLine q'.excluded).admits_iff j key).2
      ⟨fun text htext hin => hincluded text (hsub htext) (hin.trans hinfix),
        fun h => absurd h hother⟩
  · exact beq_false_of_ne hline
  · exact beq_false_of_ne hother

/-- The query `ab!zz` on what stands before the last tab. -/
def queryOfKeys : Query :=
  { queryAb with excluded := ["zz"], matchMode := .untilLastTab, keyKind := .path }

theorem evaluate_tabMode_axb :
    Query.parse "ab!zz" ⟨.untilLastTab, true, false, true, "!"⟩ = .ok queryOfKeys ∧
      Query.parse "ab" ⟨.fullLine, true, false, true, "!"⟩ =
        .ok (queryOfKeys.inMode .fullLine []) ∧
      ∃ score,
        ((new (queryOfKeys.inMode .fullLine []) .standard ⟨some "d/axis", false, .unix⟩).evaluate
            (.ofLine 0 "d/a\txb" .fullLine .unix)).map Prod.fst =
          .ok (some ⟨score, [2, 5]⟩) ∧
        ((new queryOfKeys .standard ⟨some "d/axis", false, .unix⟩).evaluate
            (.ofLine 1 "d/a\txb\t/ab" .untilLastTab .unix)).map Prod.fst =
          .ok (some ⟨score, [2, 5]⟩) := by
  have hparse : Query.parse "ab!zz" ⟨.untilLastTab, true, false, true, "!"⟩ =
      .ok queryOfKeys := by decide
  have hparse' : Query.parse "ab" ⟨.fullLine, true, false, true, "!"⟩ =
      .ok (queryOfKeys.inMode .fullLine []) := by decide
  have hkey : MatchMode.untilLastTab.IsKey "d/a\txb\t/ab" "d/a\txb" :=
    .inr ⟨"/ab", by decide, by decide⟩
  have hincluded : ∀ text ∈ queryOfKeys.excluded, ¬ utf8 text <:+: utf8 "d/a\txb\t/ab" := by
    simp only [← occursIn_iff]
    decide +kernel
  have hself : ((new (queryOfKeys.inMode .fullLine []) .standard
      ⟨some "d/axis", false, .unix⟩).evaluate
        (.ofLine 0 "d/a\txb" .fullLine .unix)).map Prod.fst = .ok (some ⟨63030, [2, 5]⟩) := by
    decide +kernel
  refine ⟨hparse, hparse', _, hself, ?_⟩
  rw [evaluate_tabMode (.inr rfl) hparse hparse' rfl (List.nil_subset _) .standard hkey hincluded
    (by decide) (by decide) 1 0, hself]

end Scorer

end FuzzyPath
