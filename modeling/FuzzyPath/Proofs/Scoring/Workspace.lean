/-
  FuzzyPath — a scorer has no memory.

  * `answer_fresh`: what a scorer keeps of the candidate before has no part in
    the next answer;
  * `answerIn_of_answer`: in a workspace, whatever it holds, the answer is the
    same;
  * `answerIn_congr`: even where there is none, what happens does not depend on
    what the workspace holds;
  * `answers_of_new`: so each of many candidates is answered as if it were alone.
-/
import FuzzyPath.Proofs.Alignment.Buffers
import FuzzyPath.Proofs.Scoring.Reuse
import FuzzyPath.Scoring.Workspace

namespace FuzzyPath.Scorer

variable {s : Scorer} {c : Candidate}

/-! ## What is kept of the candidate before -/

/-- A scorer answers as it does at first, and is then as it was at first. -/
theorem answer_fresh (s : Scorer) (c : Candidate) :
    (s.answer c).map (Prod.map id fresh) = (s.fresh.answer c).map fun r => (r.1, s.fresh) := by
  have hempty : s.fresh.query.isEmpty = s.query.isEmpty := rfl
  have hwindow : s.fresh.window c = s.window c := rfl
  have hproblem (columns : List Alignment.Column) : s.fresh.problem columns = s.problem columns :=
    rfl
  rw [answer, answer]
  by_cases hadmits : s.Admits c
  · have hfresh : s.fresh.Admits c := hadmits
    rw [score_of_admits hadmits, score_of_admits hfresh, hempty, hwindow]
    split
    · rfl
    · cases s.window c with
      | none => rfl
      | some window =>
        dsimp only
        rw [columnsOf_fresh]
        cases s.columnsOf c window with
        | error fault => rfl
        | ok columns =>
          dsimp only [Except.bind]
          rw [hproblem]
          cases Alignment.solve (s.problem columns) with
          | error fault => rfl
          | ok result =>
            cases result with
            | none => rfl
            | some sol =>
              simp only [Except.map, outcome, bind, Except.bind, positions]
              cases sol.path.mapM (offsetOf columns.toArray) <;> rfl
  · have hfresh : ¬ s.fresh.Admits c := hadmits
    rw [score_of_not_admits hadmits, score_of_not_admits hfresh]
    rfl

/-- Each of many candidates is answered as at first. -/
theorem answers_fresh : ∀ (cs : List Candidate) (s : Scorer),
    s.answers cs = cs.mapM fun c => (s.fresh.answer c).map Prod.fst
  | [], s => rfl
  | c :: cs, s => by
    rw [answers, List.mapM_cons]
    obtain ⟨fault, hfault, hfault'⟩ | ⟨⟨a, t⟩, ⟨a', t'⟩, ht, ht', heq⟩ :=
      cases_of_map_eq (answer_fresh s c)
    · rw [hfault, hfault']
      rfl
    · obtain ⟨rfl, hfresh⟩ : a = a' ∧ t.fresh = s.fresh := Prod.mk.inj heq
      rw [ht, ht']
      simp only [bind, Except.bind, Except.map, answers_fresh cs t, hfresh]

theorem path_of_score_none {t : Scorer} (h : s.score c = .ok (none, t)) : t.path = [] := by
  by_cases hadmits : s.Admits c
  · rw [score_of_admits hadmits] at h
    split at h
    · cases h
    · cases hwindow : s.window c with
      | none =>
        rw [hwindow] at h
        cases h
        rfl
      | some window =>
        rw [hwindow] at h
        obtain ⟨columns, -, h⟩ := bind_eq_ok h
        obtain ⟨result, -, h⟩ := map_eq_ok h
        cases result with
        | none =>
          cases h
          rfl
        | some sol => cases h
  · rw [score_of_not_admits hadmits] at h
    cases h
    rfl

theorem positions_of_answer_none {a : Answer} {t : Scorer} (h : s.answer c = .ok (a, t))
    (hnone : a.score = none) : a.positions = [] := by
  obtain ⟨⟨r, t'⟩, hscore, h⟩ := bind_eq_ok h
  obtain ⟨positions, hpositions, h⟩ := bind_eq_ok h
  obtain ⟨rfl, -⟩ := Prod.mk.inj (Except.ok.inj h)
  obtain rfl : r = none := hnone
  rw [Scorer.positions, path_of_score_none hscore] at hpositions
  exact (Except.ok.inj hpositions).symm

/-! ## In a workspace -/

theorem pushUnits_cons (filename : Option Span) (prev : Option CharClass) (bonus : Array Int)
    (separator : Array Bool) (unit : TextUnit) (units : List TextUnit) :
    s.pushUnits filename prev bonus separator (unit :: units) =
      (s.unitBonus filename prev unit).bind fun earned =>
        let cls := classify s.query.textMode s.style? unit.ch
        s.pushUnits filename (some cls) (bonus.push earned) (separator.push (cls == .separator))
          units := by
  rw [pushUnits, unitBonus]
  split <;> rfl

/-- The bonuses and separators are those of the columns. -/
theorem pushUnits_of_columnsFrom (filename : Option Span) : ∀ {units : List TextUnit}
    {prev : Option CharClass} {done columns : List Alignment.Column},
    s.columnsFrom filename prev done units = .ok columns →
      s.pushUnits filename prev (done.reverse.map (·.bonus)).toArray
          (done.reverse.map (·.isSeparator)).toArray units =
        .ok ((columns.map (·.bonus)).toArray, (columns.map (·.isSeparator)).toArray)
  | [], prev, done, columns, h => by
    rw [columnsFrom] at h
    rw [pushUnits, Except.ok.inj h]
  | unit :: units, prev, done, columns, h => by
    rw [columnsFrom_cons] at h
    obtain ⟨earned, hearned, h⟩ := bind_eq_ok h
    have hrest := pushUnits_of_columnsFrom filename h
    rw [pushUnits_cons, hearned]
    simpa [Except.bind] using hrest

theorem prepareIn_of_columnsOf {window : Span} {columns : List Alignment.Column}
    (h : s.columnsOf c window = .ok columns) (w : Workspace) :
    s.prepareIn w c window = .ok { w with
      units := (columns.map (·.unit)).toArray
      bonus := (columns.map (·.bonus)).toArray
      separator := (columns.map (·.isSeparator)).toArray } := by
  -- Both look for the file name in the same place.
  obtain ⟨filename, hcolumns, hprepare⟩ : ∃ filename,
      s.columnsOf c window =
        s.columnsFrom filename (s.classBefore c window) [] (s.windowUnits c window) ∧
      s.prepareIn w c window =
        (s.pushUnits filename (s.classBefore c window) #[] #[] (s.windowUnits c window)).bind
          fun r => .ok { w with
            units := (s.windowUnits c window).toArray, bonus := r.1, separator := r.2 } :=
    ⟨_, rfl, rfl⟩
  have hpush : s.pushUnits filename _ #[] #[] _ = _ :=
    pushUnits_of_columnsFrom filename (hcolumns.symm.trans h)
  rw [hprepare, hpush, columnsOf_units h]
  rfl

/-- The units with what belongs to them are the columns again. -/
theorem columns_of_maps (columns : List Alignment.Column) (buffers : Alignment.Buffers) :
    Workspace.columns ⟨(columns.map (·.unit)).toArray, (columns.map (·.bonus)).toArray,
      (columns.map (·.isSeparator)).toArray, buffers⟩ = columns.toArray := by
  rw [Workspace.columns]
  simp [List.zip_map', Function.comp_def]

theorem fetch_offset (columns : List Alignment.Column) (j : Nat) :
    (fetch (columns.map (·.unit)).toArray j).map (·.offset) = offsetOf columns.toArray j := by
  rw [fetch, offsetOf]
  cases h : columns[j]? <;> simp [h, Except.map]

theorem scoreIn_of_not_admits (h : ¬ s.Admits c) (w : Workspace) :
    s.scoreIn w c = .ok (none, w.idle) := by
  rw [scoreIn]
  split
  · rfl
  · rename_i hex
    rw [if_pos]
    by_contra hcurrent
    refine h ⟨by simpa using hex, fun hc => ?_⟩
    simpa [hc] using hcurrent

theorem scoreIn_of_admits (h : s.Admits c) (w : Workspace) : s.scoreIn w c =
    if s.query.isEmpty then .ok (some (s.penalized c 0), w.idle)
    else match s.window c with
      | none => .ok (none, w.idle)
      | some window => (s.prepareIn w.idle c window).bind fun ready => s.matchIn ready c := by
  obtain ⟨hex, hcurrent⟩ := h
  have hcurrent' : ¬ (s.isCurrent c && !s.context.matchCurrent) = true := by
    simpa using hcurrent
  rw [scoreIn, if_neg (by simp [hex]), if_neg hcurrent']
  rfl

/-- A candidate is matched in its columns. -/
theorem matchIn_of_solve {columns : List Alignment.Column} {result : Option Alignment.Solution}
    (hquery : s.query.units ≠ []) (h : Alignment.solve (s.problem columns) = .ok result)
    {w : Workspace} (hunits : w.units = (columns.map (·.unit)).toArray)
    (hcolumns : w.columns = columns.toArray) (hidle : w.alignment.path = #[]) :
    ∃ w', s.matchIn w c = .ok ((s.outcome c columns result).1, w') ∧
      w'.positions = (s.outcome c columns result).2.positions := by
  obtain ⟨alignment, halign, hpath⟩ := Alignment.alignIn_of_solve hquery h w.alignment
  rw [hidle] at hpath
  have hproblem : (⟨s.query.units, w.columns, s.query.caseSensitive, .ofWeights s.weights⟩ :
      Alignment.Problem) = s.problem columns := by rw [hcolumns, problem]
  have hpositions (path : List Nat) (hpath : alignment.path = path.toArray) :
      ({ w with alignment } : Workspace).positions = path.mapM (offsetOf columns.toArray) := by
    rw [Workspace.positions, hpath, hunits]
    exact mapM_congr fun j _ => fetch_offset columns j
  refine ⟨{ w with alignment }, ?_, ?_⟩
  · rw [matchIn, hproblem, halign, hunits, List.size_toArray, List.length_map]
    cases result <;> rfl
  · cases result with
    | none => exact hpositions [] hpath
    | some sol => exact hpositions sol.path hpath

/-- A candidate is scored in the same way in a workspace. -/
theorem scoreIn_of_score {r : Option Int} {t : Scorer} (h : s.score c = .ok (r, t))
    (w : Workspace) : ∃ w', s.scoreIn w c = .ok (r, w') ∧ w'.positions = t.positions := by
  by_cases hadmits : s.Admits c
  · rw [score_of_admits hadmits] at h
    rw [scoreIn_of_admits hadmits]
    by_cases hempty : s.query.isEmpty = true
    · rw [if_pos hempty] at h
      rw [if_pos hempty]
      cases h
      exact ⟨_, rfl, rfl⟩
    · rw [if_neg hempty] at h
      rw [if_neg hempty]
      cases hwindow : s.window c with
      | none =>
        rw [hwindow] at h
        cases h
        exact ⟨_, rfl, rfl⟩
      | some window =>
        rw [hwindow] at h
        obtain ⟨columns, hcolumns, h⟩ := bind_eq_ok h
        obtain ⟨result, hresult, hout⟩ := map_eq_ok h
        have hquery : s.query.units ≠ [] := by simpa [Query.isEmpty] using hempty
        obtain ⟨w', hw', hpositions⟩ := matchIn_of_solve hquery hresult
          (w := { w.idle with
            units := (columns.map (·.unit)).toArray
            bonus := (columns.map (·.bonus)).toArray
            separator := (columns.map (·.isSeparator)).toArray })
          rfl (columns_of_maps columns w.idle.alignment) rfl
        refine ⟨w', ?_, ?_⟩
        · dsimp only
          rw [prepareIn_of_columnsOf hcolumns, Except.bind, hw', hout]
        · rw [hpositions, hout]
  · rw [score_of_not_admits hadmits] at h
    cases h
    exact ⟨_, scoreIn_of_not_admits hadmits w, rfl⟩

/-- In a workspace a candidate is answered in the same way. -/
theorem answerIn_of_answer {a : Answer} {t : Scorer} (h : s.answer c = .ok (a, t))
    (w : Workspace) : ∃ w', s.answerIn w c = .ok (a, w') := by
  obtain ⟨⟨r, t'⟩, hscore, h⟩ := bind_eq_ok h
  obtain ⟨positions, hpositions, h⟩ := bind_eq_ok h
  obtain ⟨w', hw', heq⟩ := scoreIn_of_score hscore w
  refine ⟨w', ?_⟩
  rw [answerIn, hw']
  simp only [bind, Except.bind, heq, hpositions]
  rw [← (Prod.mk.inj (Except.ok.inj h)).1]
  rfl

/-- In one workspace, many candidates are answered as each is alone. -/
theorem answersIn_of_mapM : ∀ {cs : List Candidate} {answers : List Answer},
    cs.mapM (fun c => (s.answer c).map Prod.fst) = .ok answers → ∀ w : Workspace,
      s.answersIn w cs = .ok answers
  | [], answers, h, w => h
  | c :: cs, answers, h, w => by
    rw [List.mapM_cons] at h
    obtain ⟨a, ha, h⟩ := bind_eq_ok h
    obtain ⟨rest, hrest, h⟩ := bind_eq_ok h
    obtain ⟨⟨_, t⟩, hanswer, rfl⟩ := map_eq_ok ha
    obtain ⟨w', hw'⟩ := answerIn_of_answer hanswer w
    rw [answersIn, hw']
    simp only [bind, Except.bind, answersIn_of_mapM hrest w']
    exact h

/-! ## What a workspace held before -/

/-- The units are prepared anew. -/
theorem prepareIn_eq (w : Workspace) (c : Candidate) (window : Span) :
    s.prepareIn w c window =
      (s.prepareIn .empty c window).map fun ready => { ready with alignment := w.alignment } := by
  rw [prepareIn, prepareIn]
  simp only [bind, Except.bind]
  split <;> rfl

/-- Of what the workspace held, only the path has a part in the next score and the
    positions asked for after it. -/
theorem matchIn_congr {w w' : Workspace} (hunits : w'.units = w.units)
    (hcolumns : w'.columns = w.columns) (hpath : w'.alignment.path = w.alignment.path) :
    (s.matchIn w' c).map (Prod.map id Workspace.positions) =
      (s.matchIn w c).map (Prod.map id Workspace.positions) := by
  rw [matchIn, matchIn, hcolumns, hunits]
  obtain ⟨fault, hfault', hfault⟩ | ⟨⟨raw', b'⟩, ⟨raw, b⟩, halign', halign, heq⟩ :=
    cases_of_map_eq (Alignment.alignIn_congr hpath
      (p := ⟨s.query.units, w.columns, s.query.caseSensitive, .ofWeights s.weights⟩))
  · simp only [bind, Except.bind, hfault', hfault]
  · obtain ⟨rfl, hb⟩ : raw' = raw ∧ b'.path = b.path := Prod.mk.inj heq
    simp only [bind, Except.bind, halign', halign, Except.map, pure, Except.pure, Prod.map,
      Workspace.positions, hb]

theorem scoreIn_congr (w w' : Workspace) (c : Candidate) :
    (s.scoreIn w' c).map (Prod.map id Workspace.positions) =
      (s.scoreIn w c).map (Prod.map id Workspace.positions) := by
  by_cases hadmits : s.Admits c
  · rw [scoreIn_of_admits hadmits, scoreIn_of_admits hadmits]
    split
    · rfl
    · cases s.window c with
      | none => rfl
      | some window =>
        dsimp only
        rw [prepareIn_eq w.idle, prepareIn_eq w'.idle]
        cases s.prepareIn .empty c window with
        | error fault => rfl
        | ok ready => exact matchIn_congr rfl rfl rfl
  · rw [scoreIn_of_not_admits hadmits, scoreIn_of_not_admits hadmits]
    rfl

/-- The answer to a candidate does not depend on what the workspace holds. -/
theorem answerIn_congr (w w' : Workspace) (c : Candidate) :
    (s.answerIn w' c).map Prod.fst = (s.answerIn w c).map Prod.fst := by
  have hanswer (w : Workspace) : (s.answerIn w c).map Prod.fst =
      ((s.scoreIn w c).map (Prod.map id Workspace.positions)).bind fun r =>
        r.2.map fun positions => ⟨r.1, positions⟩ := by
    rw [answerIn]
    cases s.scoreIn w c with
    | error fault => rfl
    | ok r =>
      simp only [bind, Except.bind, Except.map, Prod.map]
      cases r.2.positions <;> rfl
  rw [hanswer w, hanswer w', scoreIn_congr w w']

/-- Nor do the answers to many. -/
theorem answersIn_eq (w₀ : Workspace) : ∀ (cs : List Candidate) (w : Workspace),
    s.answersIn w cs = cs.mapM fun c => (s.answerIn w₀ c).map Prod.fst
  | [], w => rfl
  | c :: cs, w => by
    rw [answersIn, List.mapM_cons]
    obtain ⟨fault, hfault, hfault'⟩ | ⟨⟨a, w'⟩, ⟨a', w₁⟩, hw', hw₁, heq⟩ :=
      cases_of_map_eq (answerIn_congr w₀ w c (s := s))
    · rw [hfault, hfault']
      rfl
    · obtain rfl : a = a' := heq
      rw [hw', hw₁]
      simp only [bind, Except.bind, Except.map, answersIn_eq w₀ cs w']

/-! ## A scorer used again -/

/-- Each of many candidates is answered as a new scorer answers it alone, and so it is
    in a workspace, whatever that held before.  One that does not match has no
    positions. -/
theorem answers_of_new (query : Query) (weights : Weights) (context : EditorContext)
    (cs : List Candidate) (w : Workspace) :
    let s := Scorer.new query weights context
    s.answers cs = cs.mapM (fun c => (s.answer c).map Prod.fst) ∧
      s.answersIn w cs = cs.mapM (fun c => (s.answerIn .empty c).map Prod.fst) ∧
      ∀ answers, s.answers cs = .ok answers →
        s.answersIn w cs = .ok answers ∧ ∀ a ∈ answers, a.score = none → a.positions = [] := by
  intro s
  have halone : s.answers cs = cs.mapM fun c => (s.answer c).map Prod.fst := answers_fresh cs s
  refine ⟨halone, answersIn_eq .empty cs w, fun answers h => ?_⟩
  rw [halone] at h
  refine ⟨answersIn_of_mapM h w, fun a ha hnone => ?_⟩
  obtain ⟨c, -, hc⟩ := exists_of_mem_mapM h ha
  obtain ⟨⟨_, t⟩, hanswer, rfl⟩ := map_eq_ok hc
  exact positions_of_answer_none hanswer hnone

/-- A longer candidate, one that does not match and a shorter one, in a row. -/
theorem answers_of_new_ab :
    let cs := [scorerOfAb.candidate 0 "xxaxbx", scorerOfAb.candidate 1 "ba",
      scorerOfAb.candidate 2 "ab"]
    let answers : List Answer := [⟨some 29090, [2, 4]⟩, ⟨none, []⟩, ⟨some 58000, [0, 1]⟩]
    scorerOfAb.answers cs = .ok answers ∧ scorerOfAb.answersIn .empty cs = .ok answers ∧
      ∀ a ∈ answers, a.score = none → a.positions = [] := by
  intro cs answers
  have hanswers : scorerOfAb.answers cs = .ok answers := by decide +kernel
  obtain ⟨-, -, hsame⟩ := answers_of_new queryAb .standard ⟨none, false, .unix⟩ cs .empty
  exact ⟨hanswers, hsame answers hanswers⟩

end FuzzyPath.Scorer
