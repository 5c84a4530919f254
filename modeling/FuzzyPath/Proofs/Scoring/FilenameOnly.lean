/-
  FuzzyPath — matching the file name only.

  A query on file names is matched within the last component of a path, and
  nothing around it has a part in the result: not the directories before it,
  nor the separators after it.

  * `evaluate_of_admits` is the result of a candidate in terms of its columns;
  * `columnsOf_filename`: the columns of a path are those of its file name,
    which begins where `columnsFrom_shift` moves them to;
  * `evaluate_filenameOnly`: a path and its file name have the same result, but
    for where the file name begins.
-/
import FuzzyPath.Proofs.Alignment.Shift
import FuzzyPath.Proofs.Scoring.Criterion

namespace FuzzyPath

/-! ## Separators -/

/-- A separator is one byte. -/
theorem PathStyle.exists_byte_of_isSeparator {style : PathStyle} {c : Char}
    (h : style.isSeparator c = true) :
    ∃ b : UInt8, String.utf8EncodeChar c = [b] ∧ Char.ofNat b.toNat = c := by
  have hc : c = '/' ∨ c = '\\' := by
    cases style with
    | unix => exact .inl (beq_iff_eq.1 h)
    | windows => simpa [isSeparator, or_comm] using h
  rcases hc with rfl | rfl
  · exact ⟨47, by decide, by decide⟩
  · exact ⟨92, by decide, by decide⟩

/-- After a separator a word begins as it does at the very start. -/
theorem boundary_separator (cls : CharClass) :
    boundary (some .separator) cls = boundary none cls := by
  cases cls <;> rfl

/-- A file name is its own file name. -/
theorem Path.IsFilename.self {style : PathStyle} {path front name : String}
    (h : IsFilename style path front name) : IsFilename style name "" name := by
  obtain ⟨-, -, hne, -, hname, -⟩ := h
  exact ⟨"", by simp, hne, by simp, hname, by simp⟩

theorem Query.keyKind_of_filenameOnly {raw : String} {settings : QuerySettings} {q : Query}
    (h : parse raw settings = .ok q) (honly : settings.matchMode = .filenameOnly) :
    q.keyKind = .filename ∧ q.matchMode = .filenameOnly := by
  rw [parse] at h
  obtain ⟨kind, hkind, h⟩ := bind_eq_ok h
  obtain rfl := Except.ok.inj h
  rw [keyKindOf, honly] at hkind
  exact ⟨(Except.ok.inj hkind).symm, honly⟩

/-- The result with its positions `bytes` bytes further right. -/
def MatchOutcome.shift (m : MatchOutcome) (bytes : Nat) : MatchOutcome :=
  { m with positions := m.positions.map (· + bytes) }

namespace Scorer

variable {s : Scorer} {c : Candidate}

/-! ## Results -/

/-- What is reported of an alignment: its score, and where its columns stand. -/
def reported (s : Scorer) (c : Candidate) (columns : List Alignment.Column) :
    Option Alignment.Solution → Except Fault (Option MatchOutcome)
  | none => .ok none
  | some sol => (sol.path.mapM (offsetOf columns.toArray)).map fun positions =>
      some ⟨s.penalized c (s.adjusted c sol.score (columns.length - s.query.units.length)),
        positions⟩

/-- The result of a candidate that is not dropped. -/
theorem evaluate_of_admits (h : s.Admits c) (hquery : s.query.units ≠ []) :
    (s.evaluate c).map Prod.fst = match s.window c with
      | none => .ok none
      | some window => (s.columnsOf c window).bind fun columns =>
          (Alignment.solve (s.problem columns)).bind (s.reported c columns) := by
  rw [evaluate, score_of_admits h, if_neg (by simpa [Query.isEmpty] using hquery)]
  cases s.window c with
  | none => rfl
  | some window =>
    dsimp only
    cases s.columnsOf c window with
    | error fault => rfl
    | ok columns =>
      simp only [Except.bind]
      cases Alignment.solve (s.problem columns) with
      | error fault => rfl
      | ok result =>
        cases result with
        | none => rfl
        | some sol =>
          simp only [Except.map, outcome, bind, Except.bind, positions, reported]
          cases sol.path.mapM (offsetOf columns.toArray) <;> rfl

theorem evaluate_of_empty (h : s.Admits c) (hquery : s.query.units = []) :
    (s.evaluate c).map Prod.fst = .ok (some ⟨s.penalized c 0, []⟩) := by
  rw [evaluate, score_of_empty h hquery]
  rfl

/-! ## Columns -/

theorem columnsFrom_separator (s : Scorer) (filename : Option Span)
    (done : List Alignment.Column) (units : List TextUnit) :
    s.columnsFrom filename (some .separator) done units =
      s.columnsFrom filename none done units := by
  cases units with
  | nil => rfl
  | cons unit units => simp only [columnsFrom, boundary_separator]

theorem columnsFrom_shift (s : Scorer) (bytes : Nat) : ∀ (units : List TextUnit)
    (prev : Option CharClass) (done : List Alignment.Column),
    s.columnsFrom none prev (done.map (·.shift bytes)) (units.map (·.shift bytes)) =
      (s.columnsFrom none prev done units).map (List.map (·.shift bytes))
  | [], prev, done => by
    rw [List.map_nil, columnsFrom, columnsFrom, Except.map, List.map_reverse]
  | unit :: units, prev, done => by
    have hbonus : s.unitBonus none prev (unit.shift bytes) = s.unitBonus none prev unit := rfl
    rw [List.map_cons, columnsFrom_cons, columnsFrom_cons, hbonus]
    cases s.unitBonus none prev unit with
    | error fault => rfl
    | ok bonus => exact columnsFrom_shift s bytes units _ (⟨unit, bonus, _⟩ :: done)

/-- The columns of a text are the same wherever the text stands. -/
theorem columnsFrom_decode (s : Scorer) (text : String) (base : Nat) :
    s.columnsFrom none none [] (s.query.textMode.decode text base) =
      (s.columnsFrom none none [] (s.query.textMode.decode text 0)).map
        (List.map (·.shift base)) := by
  rw [← columnsFrom_shift, ← TextMode.decode_add, Nat.zero_add, List.map_nil]

theorem solve_problem_shift (s : Scorer) (columns : List Alignment.Column) (bytes : Nat) :
    Alignment.solve (s.problem (columns.map (·.shift bytes))) =
      Alignment.solve (s.problem columns) := by
  rw [← Alignment.solve_shift (s.problem columns) bytes, problem, problem,
    Alignment.Problem.shift, List.map_toArray]

theorem key_filenameOnly (hmode : s.query.matchMode = .filenameOnly) {line : String}
    (index : Nat) : (s.candidate index line).key = line := by
  have hkey : s.query.matchMode.IsKey line line := by rw [hmode]; exact rfl
  exact key_candidate hkey index

section Filename
variable (hkind : s.query.keyKind = .filename)
include hkind

/-- Neither the distance from the current file nor its words have a part in the
    score. -/
theorem adjusted_filename (c : Candidate) (raw : Int) (unmatched : Nat) :
    s.adjusted c raw unmatched =
      saturate64 (saturate64 (scaled s.weights.lengthScale.toInt raw unmatched)) := by
  rw [adjusted, proximityPenalty, if_pos (by simp [hkind]), sharedWordBonus,
    if_pos (by simp [hkind]), sub_zero, add_zero]

theorem reported_shift {c c' : Candidate} (hc : s.isCurrent c = false)
    (hc' : s.isCurrent c' = false) (columns : List Alignment.Column) (bytes : Nat)
    (result : Option Alignment.Solution) :
    s.reported c (columns.map (·.shift bytes)) result =
      (s.reported c' columns result).map (Option.map (·.shift bytes)) := by
  cases result with
  | none => rfl
  | some sol =>
    have hoffset : offsetOf (columns.map (·.shift bytes)).toArray =
        fun j => (offsetOf columns.toArray j).map (· + bytes) := by
      funext j
      rw [offsetOf, offsetOf, List.getElem?_toArray, List.getElem?_toArray, List.getElem?_map]
      cases columns[j]? with
      | none => simp [Except.map]
      | some column => rfl
    rw [reported, reported, hoffset, mapM_map_comp, List.length_map, adjusted_filename hkind,
      adjusted_filename hkind, penalized, penalized, hc, hc']
    cases sol.path.mapM (offsetOf columns.toArray) <;> rfl

variable {path front name : String} (hname : Path.IsFilename s.context.style path front name)
include hname

/-- The file name is at the start of the path, or after a separator. -/
theorem classBefore_filename {c : Candidate} (hkey : c.key = path) (stop : Nat) :
    s.classBefore c ⟨front.utf8ByteSize, stop⟩ = none ∨
      s.classBefore c ⟨front.utf8ByteSize, stop⟩ = some .separator := by
  obtain ⟨back, rfl, -, hfront, -⟩ := hname
  rcases List.eq_nil_or_concat front.toList with hnil | ⟨init, ch, hconcat⟩
  · obtain rfl := String.toList_eq_nil_iff.1 hnil
    exact .inl rfl
  · right
    -- The byte before the file name is all of the last character of `front`.
    have hsep : s.context.style.isSeparator ch = true := hfront ch (by simp [hconcat])
    obtain ⟨b, hb, hch⟩ := PathStyle.exists_byte_of_isSeparator hsep
    have hbytes : utf8 front = utf8Chars init ++ [b] := by
      rw [utf8, hconcat, List.concat_eq_append, utf8Chars_append]
      simp [utf8Chars, hb]
    have hsize : front.utf8ByteSize = (utf8Chars init).length + 1 := by
      rw [← length_utf8, hbytes, List.length_append, List.length_singleton]
    have hlast : (utf8 c.key)[front.utf8ByteSize - 1]? = some b := by
      rw [hkey, utf8_append, utf8_append, hbytes, hsize]
      simp
    rw [classBefore, if_neg (by simp [hsize]), hlast, Option.map_some, hch, style?,
      if_pos (by rw [Query.isPathAware, hkind]; rfl), classify, Option.any_some, if_pos hsep]

variable (hmode : s.query.matchMode = .filenameOnly)
include hmode

theorem window_filename (index : Nat) : s.window (s.candidate index path) =
    some ⟨front.utf8ByteSize, front.utf8ByteSize + name.utf8ByteSize⟩ := by
  rw [window, hkind]
  simp only [Candidate.components, key_filenameOnly hmode]
  exact Path.getLast?_components hname

/-- The columns of a path are those of its file name, which stands after the
    directories. -/
theorem columnsOf_filename (index : Nat) : s.columnsOf (s.candidate index path)
      ⟨front.utf8ByteSize, front.utf8ByteSize + name.utf8ByteSize⟩ =
    s.columnsFrom none none [] (s.query.textMode.decode name front.utf8ByteSize) := by
  have hkey : (s.candidate index path).key = path := key_filenameOnly hmode index
  have hslice : (⟨front.utf8ByteSize, front.utf8ByteSize + name.utf8ByteSize⟩ : Span).slice
      path = name := by
    obtain ⟨back, rfl, -⟩ := hname
    exact Span.slice_append front name back
  have hspan : (s.candidate index path).keySpan = ⟨0, path.utf8ByteSize⟩ := by
    rw [candidate, Candidate.ofLine, hmode]
    rfl
  rw [columnsOf, hkind, hkey, hslice, hspan, Nat.zero_add]
  rcases classBefore_filename hkind hname hkey (front.utf8ByteSize + name.utf8ByteSize) with
    hbefore | hbefore
  · rw [hbefore]
  · rw [hbefore]
    exact s.columnsFrom_separator none [] _

/-- The result of a path in terms of its file name and where that begins. -/
theorem evaluate_filename {index : Nat} (hadmits : s.Admits (s.candidate index path))
    (hquery : s.query.units ≠ []) : (s.evaluate (s.candidate index path)).map Prod.fst =
      (s.columnsFrom none none [] (s.query.textMode.decode name front.utf8ByteSize)).bind
        fun columns => (Alignment.solve (s.problem columns)).bind
          (s.reported (s.candidate index path) columns) := by
  rw [evaluate_of_admits hadmits hquery, window_filename hkind hname hmode]
  dsimp only
  rw [columnsOf_filename hkind hname hmode]

end Filename

/-- A path and its file name have the same result under a query on file names,
    unless something is excluded or one of them is the current file.  Only the
    positions are as far to the right as the file name begins. -/
theorem evaluate_filenameOnly {raw : String} {settings : QuerySettings} {s : Scorer}
    (hparse : Query.parse raw settings = .ok s.query) (honly : settings.matchMode = .filenameOnly)
    {path front name : String} (hname : Path.IsFilename s.context.style path front name)
    (hincluded : ∀ text ∈ s.query.excluded, ¬ utf8 text <:+: utf8 path)
    (hpath : s.context.currentFile ≠ some path) (hfile : s.context.currentFile ≠ some name)
    (i j : Nat) :
    (s.evaluate (s.candidate i path)).map Prod.fst =
      ((s.evaluate (s.candidate j name)).map Prod.fst).map
        (Option.map (·.shift front.utf8ByteSize)) := by
  obtain ⟨hkind, hmode⟩ := Query.keyKind_of_filenameOnly hparse honly
  have hself : Path.IsFilename s.context.style name "" name := hname.self
  have hinfix : utf8 name <:+: utf8 path := by
    obtain ⟨back, rfl, -⟩ := hname
    rw [utf8_append, utf8_append]
    exact List.infix_append _ _ _
  have hadmits : s.Admits (s.candidate i path) :=
    (s.admits_iff i path).2 ⟨hincluded, fun h => absurd h hpath⟩
  have hadmits' : s.Admits (s.candidate j name) := (s.admits_iff j name).2
    ⟨fun text htext hin => hincluded text htext (hin.trans hinfix), fun h => absurd h hfile⟩
  have hother : s.isCurrent (s.candidate i path) = false := beq_false_of_ne hpath
  have hother' : s.isCurrent (s.candidate j name) = false := beq_false_of_ne hfile
  by_cases hquery : s.query.units = []
  · rw [evaluate_of_empty hadmits hquery, evaluate_of_empty hadmits' hquery, penalized, penalized,
      hother, hother']
    rfl
  · have hempty : "".utf8ByteSize = 0 := rfl
    rw [evaluate_filename hkind hname hmode hadmits hquery,
      evaluate_filename hkind hself hmode hadmits' hquery, hempty, s.columnsFrom_decode name]
    cases s.columnsFrom none none [] (s.query.textMode.decode name 0) with
    | error fault => rfl
    | ok columns =>
      simp only [Except.map, Except.bind, solve_problem_shift]
      cases Alignment.solve (s.problem columns) with
      | error fault => rfl
      | ok result => exact reported_shift hkind hother hother' columns _ result

theorem evaluate_filenameOnly_axb :
    Query.parse "ab!zz" ⟨.filenameOnly, true, false, true, "!"⟩ = .ok scorerOfNames.query ∧
      Path.IsFilename scorerOfNames.context.style "c//d/axb//" "c//d/" "axb" ∧
      ∃ score,
        (scorerOfNames.evaluate (scorerOfNames.candidate 0 "axb")).map Prod.fst =
          .ok (some ⟨score, [0, 2]⟩) ∧
        (scorerOfNames.evaluate (scorerOfNames.candidate 1 "c//d/axb//")).map Prod.fst =
          .ok (some ⟨score, [5, 7]⟩) := by
  have hparse : Query.parse "ab!zz" ⟨.filenameOnly, true, false, true, "!"⟩ =
      .ok scorerOfNames.query := by decide
  have hname : Path.IsFilename scorerOfNames.context.style "c//d/axb//" "c//d/" "axb" := by
    have hstyle : scorerOfNames.context.style = .unix := rfl
    rw [hstyle]
    exact ⟨"//", by simp, by simp, by simp [PathStyle.isSeparator],
      by simp [PathStyle.isSeparator], by simp [PathStyle.isSeparator]⟩
  have hincluded : ∀ text ∈ scorerOfNames.query.excluded, ¬ utf8 text <:+: utf8 "c//d/axb//" := by
    simp only [← occursIn_iff]
    decide +kernel
  have hself : (scorerOfNames.evaluate (scorerOfNames.candidate 0 "axb")).map Prod.fst =
      .ok (some ⟨45643, [0, 2]⟩) := by decide +kernel
  refine ⟨hparse, hname, _, hself, ?_⟩
  rw [evaluate_filenameOnly hparse rfl hname hincluded (by decide) (by decide) 1 0, hself]
  rfl

end Scorer

end FuzzyPath
