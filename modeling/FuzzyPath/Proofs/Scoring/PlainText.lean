/-
  FuzzyPath — plain text has no paths.

  Text that is no path has neither components nor a distance from anything.
  Whatever is told about paths, its result is the same.

  * `PathWeights` are the weights that have a meaning for paths only, and
    `Weights.onPaths` are weights with others of them;
  * `columnsOf_plain`: nothing of it has a part in the columns, of which none is a
    separator (`not_isSeparator_of_columnsOf`), nor in what is reported of an
    alignment (`reported_plain`);
  * `evaluate_onPaths` puts this together for two scorers, and `evaluate_plain` says
    so of a query: the result is that of any other path style, current file and
    path weights.
-/
import FuzzyPath.Proofs.Alignment.Charge
import FuzzyPath.Proofs.Scoring.FilenameOnly

namespace FuzzyPath

/-- The weights that have a meaning for paths only. -/
structure PathWeights where
  componentStartBonus : Int32
  filenameBonus : Int32
  componentGapPenalty : Int32
  currentFilePenalty : Int64
  proximityPenalty : Int64
  maxProximityDistance : UInt64
  sharedWordBonus : Int64

/-- The weights with others for paths. -/
def Weights.onPaths (w : Weights) (paths : PathWeights) : Weights :=
  { w with
    componentStartBonus := paths.componentStartBonus
    filenameBonus := paths.filenameBonus
    componentGapPenalty := paths.componentGapPenalty
    currentFilePenalty := paths.currentFilePenalty
    proximityPenalty := paths.proximityPenalty
    maxProximityDistance := paths.maxProximityDistance
    sharedWordBonus := paths.sharedWordBonus }

/-- Without a path style nothing is a separator. -/
theorem classify_ne_separator (mode : TextMode) (c : Char) :
    classify mode none c ≠ .separator := by
  rw [classify, Option.any_none, if_neg Bool.false_ne_true]
  split
  · decide
  split
  · decide
  split
  · decide
  · decide

namespace Scorer

variable {s : Scorer} {c : Candidate}

/-- A candidate that is dropped has no result. -/
theorem evaluate_of_not_admits (h : ¬ s.Admits c) : (s.evaluate c).map Prod.fst = .ok none := by
  rw [evaluate, score_of_not_admits h]
  rfl

/-- A candidate that is not the current file is only dropped if it is excluded. -/
theorem admits_of_not_current (h : s.isCurrent c = false) :
    s.Admits c ↔ s.isExcluded c = false := by
  simp [Admits, h]

theorem penalized_of_not_current (h : s.isCurrent c = false) (score : Int) :
    s.penalized c score = score := by
  rw [penalized, h]
  exact if_neg Bool.false_ne_true

section Plain
variable (hplain : s.query.keyKind = .plain)
include hplain

theorem style?_plain : s.style? = none := by
  rw [style?, Query.isPathAware, hplain]
  rfl

theorem window_plain : s.window c = some ⟨0, c.keySpan.length⟩ := by
  rw [window, hplain]

/-! ## Separators -/

theorem not_isSeparator_of_columnsFrom (filename : Option Span) : ∀ {units : List TextUnit}
    {prev : Option CharClass} {done columns : List Alignment.Column},
    s.columnsFrom filename prev done units = .ok columns →
      (∀ column ∈ done, column.isSeparator = false) → ∀ column ∈ columns, column.isSeparator = false
  | [], prev, done, columns, h, hdone => by
    rw [columnsFrom] at h
    rw [← Except.ok.inj h]
    simpa using hdone
  | unit :: units, prev, done, columns, h, hdone => by
    rw [columnsFrom_cons] at h
    obtain ⟨bonus, -, h⟩ := bind_eq_ok h
    refine not_isSeparator_of_columnsFrom filename h (List.forall_mem_cons.2 ⟨?_, hdone⟩)
    rw [style?_plain hplain]
    exact beq_false_of_ne (classify_ne_separator _ _)

theorem not_isSeparator_of_columnsOf {window : Span} {columns : List Alignment.Column}
    (h : s.columnsOf c window = .ok columns) : ∀ column ∈ columns, column.isSeparator = false :=
  not_isSeparator_of_columnsFrom hplain _ h (by simp)

/-! ## What is told about paths -/

section
variable {s' : Scorer} (hquery : s'.query = s.query) {paths : PathWeights}
  (hweights : s'.weights = s.weights.onPaths paths)
include hquery hweights

theorem boundaryBonus_plain (b : Boundary) : s'.boundaryBonus b = s.boundaryBonus b := by
  have hplain' : s'.query.keyKind = .plain := hquery ▸ hplain
  cases b with
  | component =>
    rw [boundaryBonus, boundaryBonus, style?_plain hplain, style?_plain hplain', hweights]
    rfl
  | word => rw [boundaryBonus, boundaryBonus, hweights]; rfl
  | camelHump => rw [boundaryBonus, boundaryBonus, hweights]; rfl
  | none => rfl

theorem columnsFrom_plain : ∀ (units : List TextUnit) (prev : Option CharClass)
    (done : List Alignment.Column),
    s'.columnsFrom none prev done units = s.columnsFrom none prev done units
  | [], _, _ => rfl
  | unit :: units, prev, done => by
    have hstyle : s'.style? = s.style? := by
      rw [style?_plain hplain, style?_plain (hquery ▸ hplain)]
    simp only [columnsFrom, hquery, hstyle, boundaryBonus_plain hplain hquery hweights,
      Option.any_none, Bool.false_eq_true, if_false, columnsFrom_plain units]

/-- Text that is no path has the same columns in any style. -/
theorem columnsOf_plain (style : PathStyle) :
    s'.columnsOf { c with style } ⟨0, c.keySpan.length⟩ =
      s.columnsOf c ⟨0, c.keySpan.length⟩ := by
  have hkind : s'.query.keyKind = .plain := hquery ▸ hplain
  rw [columnsOf, columnsOf, hplain, hkind, hquery]
  exact columnsFrom_plain hplain hquery hweights _ _ _

omit hplain in
theorem problem_plain (columns : List Alignment.Column) :
    s'.problem columns =
      (s.problem columns).charging paths.componentGapPenalty.toInt := by
  rw [problem, problem, hquery, hweights]
  rfl

theorem adjusted_plain (style : PathStyle) (raw : Int) (unmatched : Nat) :
    s'.adjusted { c with style } raw unmatched = s.adjusted c raw unmatched := by
  have hproximity {s : Scorer} (hs : s.query.keyKind = .plain) (c : Candidate) :
      s.proximityPenalty c = 0 := by
    rw [proximityPenalty, if_pos (.inr (by rw [hs]; decide))]
  have hwords {s : Scorer} (hs : s.query.keyKind = .plain) (c : Candidate) :
      s.sharedWordBonus c = 0 := by
    rw [sharedWordBonus, if_pos (.inr (by rw [hs]; decide))]
  have hplain' : s'.query.keyKind = .plain := hquery ▸ hplain
  have hscale : s'.weights.lengthScale = s.weights.lengthScale := by
    rw [hweights]
    rfl
  rw [adjusted, adjusted, hproximity hplain, hproximity hplain', hwords hplain, hwords hplain',
    hscale]

theorem reported_plain (hc : s.isCurrent c = false) (hc' : s'.isCurrent c = false)
    (style : PathStyle) (columns : List Alignment.Column) (result : Option Alignment.Solution) :
    s'.reported { c with style } columns result = s.reported c columns result := by
  cases result with
  | none => rfl
  | some sol =>
    have hcurrent : s'.isCurrent { c with style } = false := hc'
    simp only [reported, penalized_of_not_current hc, penalized_of_not_current hcurrent, hquery,
      adjusted_plain hplain hquery hweights]

/-! ## Results -/

theorem evaluate_onPaths (hc : s.isCurrent c = false) (hc' : s'.isCurrent c = false)
    (style : PathStyle) :
    (s'.evaluate { c with style }).map Prod.fst = (s.evaluate c).map Prod.fst := by
  have hcurrent : s'.isCurrent { c with style } = false := hc'
  have hexcluded : s'.isExcluded { c with style } = s.isExcluded c := by
    rw [isExcluded, isExcluded, hquery]
  by_cases hin : s.isExcluded c = false
  · have hs := (admits_of_not_current hc).2 hin
    have hs' := (admits_of_not_current hcurrent).2 (hexcluded.trans hin)
    by_cases hunits : s.query.units = []
    · rw [evaluate_of_empty hs hunits, evaluate_of_empty hs' (hquery ▸ hunits),
        penalized_of_not_current hc, penalized_of_not_current hcurrent]
    · rw [evaluate_of_admits hs hunits, evaluate_of_admits hs' (hquery ▸ hunits),
        window_plain hplain, window_plain (hquery ▸ hplain)]
      dsimp only
      rw [columnsOf_plain hplain hquery hweights]
      cases hcolumns : s.columnsOf c ⟨0, c.keySpan.length⟩ with
      | error fault => simp only [Except.bind]
      | ok columns =>
        have hseparators := not_isSeparator_of_columnsOf hplain hcolumns
        have hsolve :
            Alignment.solve (s'.problem columns) = Alignment.solve (s.problem columns) := by
          rw [problem_plain hquery hweights]
          exact Alignment.solve_charging _ fun column hcolumn =>
            hseparators column (List.mem_toArray.1 hcolumn)
        have hreported : s'.reported { c with style } columns = s.reported c columns :=
          funext (reported_plain hplain hquery hweights hc hc' style columns)
        simp only [Except.bind, hsolve, hreported]
  · rw [evaluate_of_not_admits fun h => hin ((admits_of_not_current hc).1 h),
      evaluate_of_not_admits fun h => hin (hexcluded ▸ (admits_of_not_current hcurrent).1 h)]

end

end Plain

/-- Text that is no path has the same result, or fails in the same way, in any
    path style, beside any file open in the editor that it is not itself, and with
    any weights for paths. -/
theorem evaluate_plain {q : Query} (hplain : q.keyKind = .plain) (w : Weights)
    (paths : PathWeights) {context context' : EditorContext} (c : Candidate) (style : PathStyle)
    (hc : context.currentFile ≠ some c.text) (hc' : context'.currentFile ≠ some c.text) :
    ((new q (w.onPaths paths) context').evaluate { c with style }).map Prod.fst =
      ((new q w context).evaluate c).map Prod.fst := by
  have hquery : (new q (w.onPaths paths) context').query = (new q w context).query := rfl
  have hweights : (new q (w.onPaths paths) context').weights =
    (new q w context).weights.onPaths paths := rfl
  exact evaluate_onPaths hplain hquery hweights (beq_false_of_ne hc) (beq_false_of_ne hc') style

theorem evaluate_plain_axb :
    queryAb.keyKind = .plain ∧ some "a/x/c" ≠ some "a/x/b" ∧ (none : Option String) ≠ some "a/x/b" ∧
      ((new queryAb .standard ⟨some "a/x/c", false, .unix⟩).evaluate
          (.ofLine 0 "a/x/b" .fullLine .unix)).map Prod.fst = .ok (some ⟨54717, [0, 4]⟩) ∧
      ((new queryAb (Weights.standard.onPaths ⟨99, 4096, 77, 5, 400, 3, 6000⟩)
          ⟨none, true, .windows⟩).evaluate
          (.ofLine 0 "a/x/b" .fullLine .windows)).map Prod.fst = .ok (some ⟨54717, [0, 4]⟩) := by
  have hself : ((new queryAb .standard ⟨some "a/x/c", false, .unix⟩).evaluate
      (.ofLine 0 "a/x/b" .fullLine .unix)).map Prod.fst = .ok (some ⟨54717, [0, 4]⟩) := by
    decide +kernel
  have hother : some "a/x/c" ≠ some "a/x/b" := by decide
  refine ⟨rfl, hother, nofun, hself, ?_⟩
  rw [← hself]
  exact evaluate_plain rfl .standard ⟨99, 4096, 77, 5, 400, 3, 6000⟩
    (.ofLine 0 "a/x/b" .fullLine .unix) .windows hother nofun

end Scorer

end FuzzyPath
