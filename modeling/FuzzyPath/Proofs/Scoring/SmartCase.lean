/-
  FuzzyPath — queries in which case counts, and the same queries without.

  Smart case makes case count where the query has an uppercase letter.  Units
  that are written alike fold alike, so that without it nothing is lost.

  * `Query.ignoringCase` is a query with case ignored; `parse_ignoringCase`:
    this is what is read without smart case;
  * `Problem.within_ignoringCase`: all alignments of a problem are alignments
    with case ignored, and worth as much there;
  * `score_le_without_smartCase`: where the table is used, a candidate that
    matches with smart case matches without it, and has no lower score.
-/
import FuzzyPath.Proofs.Scoring.WeightOrder

namespace FuzzyPath

/-! ## Units -/

/-- A unit is folded as its character is. -/
theorem TextMode.folded_of_mem_decode {mode : TextMode} {text : String} {base : Nat}
    {u : TextUnit} (h : u ∈ mode.decode text base) : u.folded = mode.fold u.ch := by
  cases mode with
  | bytes =>
    obtain ⟨i, hi, rfl⟩ := List.mem_mapIdx.1 h
    rfl
  | unicode =>
    rw [decode] at h
    generalize text.toList = cs at h
    induction cs generalizing base with
    | nil => simp [decodeChars] at h
    | cons c cs ih =>
      rw [decodeChars_cons] at h
      rcases List.mem_cons.1 h with rfl | h
      · rfl
      · exact ih h

namespace Query

/-- The query with case ignored. -/
def ignoringCase (q : Query) : Query := { q with caseSensitive := false }

variable {raw : String} {settings : QuerySettings} {q : Query}

/-- Without smart case the same query is read, with case ignored. -/
theorem parse_ignoringCase (settings : QuerySettings)
    (h : parse raw { settings with smartCase := true } = .ok q) :
    parse raw { settings with smartCase := false } = .ok q.ignoringCase := by
  rw [parse] at h
  obtain ⟨kind, hkind, h⟩ := bind_eq_ok h
  obtain rfl := Except.ok.inj h
  have hkind' : keyKindOf { settings with smartCase := false } = .ok kind := hkind
  rw [parse, hkind']
  rfl

theorem folded_of_parse (h : parse raw settings = .ok q) {u : TextUnit} (hu : u ∈ q.units) :
    u.folded = q.textMode.fold u.ch := by
  rw [parse] at h
  obtain ⟨kind, -, h⟩ := bind_eq_ok h
  obtain rfl := Except.ok.inj h
  exact TextMode.folded_of_mem_decode hu

end Query

/-! ## Problems -/

namespace Alignment
variable {p : Problem}

/-- The problem with case ignored. -/
def Problem.ignoringCase (p : Problem) : Problem := { p with caseSensitive := false }

theorem Problem.steps_ignoringCase (p : Problem) : ∀ path : List Nat,
    p.ignoringCase.steps path = p.steps path
  | [] => rfl
  | [_] => rfl
  | i :: j :: path => congrArg (p.step i j + ·) (p.steps_ignoringCase (j :: path))

/-- What an alignment is worth has to do with how its units are written, not
    with whether case counts. -/
theorem Problem.worth_ignoringCase (p : Problem) (query : List TextUnit) (path : List Nat) :
    p.ignoringCase.worth query path = p.worth query path :=
  congrArg ((List.zipWith p.gainAt query path).sum + ·) (p.steps_ignoringCase path)

/-- Where units that are written alike fold alike, no alignment is lost when
    case is ignored. -/
theorem Problem.within_ignoringCase
    (hfold : ∀ q ∈ p.query, ∀ c ∈ p.columns.toList, q.ch = c.unit.ch → q.folded = c.unit.folded) :
    p.Within p.ignoringCase := by
  intro path hpath
  refine ⟨hpath.imp fun q hq j c hc haccepts => ⟨c, hc, ?_⟩,
    (p.worth_ignoringCase _ path).ge⟩
  have hfolded : q.folded = c.unit.folded := by
    rw [accepts, unitMatches] at haccepts
    split at haccepts
    · exact hfold q hq c (List.mem_of_getElem? hc) (beq_iff_eq.1 haccepts)
    · exact beq_iff_eq.1 haccepts
  exact beq_iff_eq.2 hfolded

/-- If all columns fit into the table, it is used. -/
theorem exists_scanned (hquery : p.query ≠ []) (hsome : ∃ path, p.IsAlignment path)
    (hcells : p.query.length * p.columns.size ≤ maxCells) :
    ∃ first last, Scanned p first last := by
  obtain ⟨first, last, hfirst, hlast⟩ := exists_embeds_iff.1 hsome
  refine ⟨first, last, hquery, hfirst, hlast, le_trans (Nat.mul_le_mul_left _ ?_) hcells⟩
  have hembeds := latest_embeds hlast
  have hne : last ≠ [] := by
    rintro rfl
    exact hquery (List.length_eq_zero_iff.1 hembeds.length_eq)
  have hlt := hembeds.lt_length (List.getLast_mem hne)
  rw [Array.length_toList] at hlt
  rw [width, List.getLastD_eq_getLast?, List.getLast?_eq_some_getLast hne, Option.getD_some]
  omega

end Alignment

/-! ## Scores -/

namespace Scorer

/-- The scorer with case ignored. -/
def ignoringCase (s : Scorer) : Scorer := { s with query := s.query.ignoringCase }

variable {s : Scorer} {c : Candidate}

theorem columnsOf_ignoringCase (s : Scorer) (c : Candidate) (window : Span) :
    s.ignoringCase.columnsOf c window = s.columnsOf c window :=
  @columnsFrom_congr s s.ignoringCase rfl rfl rfl _ _ _ _

theorem within_problem_ignoringCase
    (hunits : ∀ u ∈ s.query.units, u.folded = s.query.textMode.fold u.ch) {window : Span}
    {columns : List Alignment.Column} (hcolumns : s.columnsOf c window = .ok columns) :
    (s.problem columns).Within (s.ignoringCase.problem columns) := by
  refine Alignment.Problem.within_ignoringCase fun q hq column hcolumn hch => ?_
  have hunit : column.unit ∈ s.windowUnits c window :=
    columnsOf_units hcolumns ▸ List.mem_map_of_mem hcolumn
  rw [hunits q hq, hch, TextMode.folded_of_mem_decode hunit]

/-- Whether the units of the window fit into the table. -/
def FitsTable (s : Scorer) (c : Candidate) : Prop :=
  ∀ window, s.window c = some window →
    s.query.units.length * (s.windowUnits c window).length ≤ Alignment.maxCells

section Valid
variable (hvalid : s.weights.validate = .ok ())
  (hunits : ∀ u ∈ s.query.units, u.folded = s.query.textMode.fold u.ch) (hfits : s.FitsTable c)
include hvalid hunits hfits

theorem alignmentPart_ignoringCase (hquery : s.query.units ≠ [])
    {part : Int} {part' : Option Int} (hpart : s.alignmentPart c = .ok (some part))
    (hpart' : s.ignoringCase.alignmentPart c = .ok part') :
    ∃ y, part' = some y ∧ part ≤ y := by
  rcases alignmentPart_cases hpart with
    ⟨-, hnone⟩ | ⟨window, columns, result, hw, hcolumns, hresult, hsome⟩
  · cases hnone
  obtain ⟨sol, rfl, rfl⟩ := Option.map_eq_some_iff.1 hsome.symm
  rcases alignmentPart_cases hpart' with
    ⟨hw', -⟩ | ⟨window', columns', result', hw', hcolumns', hresult', rfl⟩
  · cases hw.symm.trans hw'
  obtain rfl : window = window' := Option.some.inj (hw.symm.trans hw')
  rw [columnsOf_ignoringCase] at hcolumns'
  obtain rfl := Except.ok.inj (hcolumns.symm.trans hcolumns')
  have hwithin := within_problem_ignoringCase hunits hcolumns
  have hp := moderate_of_columnsOf hvalid hcolumns
  have hp' : (s.ignoringCase.problem columns).Moderate := { hp with }
  have hlen : (s.problem columns).columns.size = (s.windowUnits c window).length := by
    rw [← columnsOf_units hcolumns, List.length_map]
    exact List.size_toArray
  have hcells : (s.problem columns).query.length * (s.problem columns).columns.size ≤
      Alignment.maxCells := hlen ▸ hfits window hw
  -- The bounds of the query units differ between the problems, but the table is
  -- large enough for either.
  obtain ⟨path, hpath⟩ := (Alignment.solve_isSome_iff hresult).1 rfl
  obtain ⟨first, last, hscan⟩ := Alignment.exists_scanned hquery ⟨path, hpath⟩ hcells
  obtain ⟨first', last', hscan'⟩ :=
    Alignment.exists_scanned (p := s.ignoringCase.problem columns) hquery
      ⟨path, (hwithin path hpath).1⟩ hcells
  obtain ⟨sol', rfl, hraw⟩ :=
    hscan.exists_solution_of_within hscan' hp hp' hwithin hresult hresult'
  have hbound := Alignment.score_le_of_solve hp' hquery hresult'
  obtain ⟨hscale, hmost⟩ := Weights.lengthScale_mem hvalid
  exact ⟨_, rfl, scaled_mono hscale le_rfl hmost hraw hbound _⟩

theorem score_ignoringCase {x : Int} {r' : Option Int} {t t' : Scorer}
    (hscore : s.score c = .ok (some x, t)) (hscore' : s.ignoringCase.score c = .ok (r', t')) :
    ∃ y, r' = some y ∧ x ≤ y := by
  have hadmits : s.Admits c := by
    by_contra hnot
    rw [score_of_not_admits hnot] at hscore
    cases (Prod.mk.inj (Except.ok.inj hscore)).1
  have hadmits' : s.ignoringCase.Admits c := hadmits
  by_cases hquery : s.query.units = []
  · rw [score_of_empty hadmits hquery] at hscore
    rw [score_of_empty (s := s.ignoringCase) hadmits' hquery] at hscore'
    obtain ⟨hx, -⟩ := Prod.mk.inj (Except.ok.inj hscore)
    obtain ⟨rfl, -⟩ := Prod.mk.inj (Except.ok.inj hscore')
    exact ⟨_, rfl, (Option.some.inj hx).ge⟩
  · obtain ⟨part, hpart, hx⟩ := exists_part_of_score hadmits hquery hscore
    obtain ⟨part', hpart', rfl⟩ := exists_part_of_score hadmits' hquery hscore'
    obtain ⟨part, rfl, rfl⟩ := Option.map_eq_some_iff.1 hx
    obtain ⟨y, rfl, hle⟩ := alignmentPart_ignoringCase hvalid hunits hfits hquery hpart hpart'
    exact ⟨_, rfl, adjust_mono (Weights.Below.refl s.weights) hvalid hle⟩

end Valid

/-- What can be read with smart case can be read without.  A candidate whose
    units fit into the table then still matches, and its score is no lower. -/
theorem score_le_without_smartCase {raw : String} (settings : QuerySettings) {q : Query}
    (hparse : Query.parse raw { settings with smartCase := true } = .ok q) {w : Weights}
    (hvalid : w.validate = .ok ()) (context : EditorContext) {c : Candidate}
    (hfits : (new q w context).FitsTable c) :
    ∃ q', Query.parse raw { settings with smartCase := false } = .ok q' ∧
      ∀ r r' t t', (new q w context).score c = .ok (r, t) →
        (new q' w context).score c = .ok (r', t') → ∀ x ∈ r, ∃ y ∈ r', x ≤ y := by
  refine ⟨q.ignoringCase, Query.parse_ignoringCase settings hparse, ?_⟩
  rintro r r' t t' hscore hscore' x rfl
  have hunits : ∀ u ∈ q.units, u.folded = q.textMode.fold u.ch :=
    fun u hu => Query.folded_of_parse hparse hu
  have hnew : new q.ignoringCase w context = (new q w context).ignoringCase := rfl
  rw [hnew] at hscore'
  exact score_ignoringCase (s := new q w context) hvalid hunits hfits hscore hscore'

/-- The query `aB`, in which case counts. -/
def queryCapital : Query :=
  ⟨"aB", [], .fullLine, .plain, .bytes, true, [⟨'a', 'a', 0, 1⟩, ⟨'B', 'b', 1, 1⟩]⟩

theorem score_le_without_smartCase_capital :
    Query.parse "aB" ⟨.fullLine, false, false, true, ""⟩ = .ok queryCapital ∧
      Weights.standard.validate = .ok () ∧
      (new queryCapital .standard ⟨none, false, .unix⟩).FitsTable
        (.ofLine 0 "ab-xaxB" .fullLine .unix) ∧
      ∃ q' x y t t', Query.parse "aB" ⟨.fullLine, false, false, false, ""⟩ = .ok q' ∧
        (new queryCapital .standard ⟨none, false, .unix⟩).score
          (.ofLine 0 "ab-xaxB" .fullLine .unix) = .ok (some x, t) ∧
        (new q' .standard ⟨none, false, .unix⟩).score
          (.ofLine 0 "ab-xaxB" .fullLine .unix) = .ok (some y, t') ∧ x ≤ y := by
  have hparse : Query.parse "aB" ⟨.fullLine, false, false, true, ""⟩ = .ok queryCapital := by
    decide
  have hvalid : Weights.standard.validate = .ok () := by decide
  have hfits : (new queryCapital .standard ⟨none, false, .unix⟩).FitsTable
      (.ofLine 0 "ab-xaxB" .fullLine .unix) := by
    intro window hwindow
    obtain rfl := Option.some.inj hwindow
    decide +kernel
  have hfst : ((new queryCapital .standard ⟨none, false, .unix⟩).score
      (.ofLine 0 "ab-xaxB" .fullLine .unix)).map Prod.fst = .ok (some 51969) := by decide +kernel
  have hfst' : ((new queryCapital.ignoringCase .standard ⟨none, false, .unix⟩).score
      (.ofLine 0 "ab-xaxB" .fullLine .unix)).map Prod.fst = .ok (some 54857) := by decide +kernel
  obtain ⟨⟨_, t⟩, hscore, rfl⟩ := map_eq_ok hfst
  obtain ⟨⟨_, t'⟩, hscore', rfl⟩ := map_eq_ok hfst'
  obtain ⟨q', hparse', hle⟩ := score_le_without_smartCase ⟨.fullLine, false, false, true, ""⟩
    hparse hvalid ⟨none, false, .unix⟩ hfits
  obtain rfl : queryCapital.ignoringCase = q' :=
    Except.ok.inj ((Query.parse_ignoringCase _ hparse).symm.trans hparse')
  obtain ⟨y, hy, hxy⟩ := hle _ _ _ _ hscore hscore' _ rfl
  exact ⟨hparse, hvalid, hfits, _, _, y, t, t', hparse', hscore, by rw [hscore', hy], hxy⟩

end Scorer

end FuzzyPath
