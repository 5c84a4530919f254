/-
  FuzzyPath — the columns that a scorer aligns a query with.

  * `Weights.validate_eq_ok_iff` says which weights pass the check;
  * `columnsOf_units`: the columns are the units of the window, in order;
  * `Addressable` candidates have so few of them that 32 bits hold each column,
    as lines of fewer than 2^32 bytes do (`addressable_of_size_lt`);
  * `columnsOf_valid`: with weights that pass the check the columns exist, and
    the problem made of them has `Moderate` prices.
-/
import FuzzyPath.Scoring.Scorer
import FuzzyPath.Proofs.Alignment.Worth
import FuzzyPath.Proofs.Fallible
import FuzzyPath.Proofs.Text.Offsets

namespace FuzzyPath

/-! ## Valid weights -/

namespace Weights

theorem checkRanges_eq_ok_iff : ∀ ranges : List (String × Int × Int × Int),
    checkRanges ranges = .ok () ↔ ∀ r ∈ ranges, r.2.2.1 ≤ r.2.1 ∧ r.2.1 ≤ r.2.2.2
  | [] => by simp [checkRanges]
  | (name, value, min, max) :: ranges => by
    rw [checkRanges]
    split
    · rename_i hin
      rw [checkRanges_eq_ok_iff ranges]
      constructor
      · intro h r hr
        rcases List.mem_cons.1 hr with rfl | hr
        · exact hin
        · exact h r hr
      · exact fun h r hr => h r (List.mem_cons_of_mem _ hr)
    · rename_i hout
      constructor
      · intro h; cases h
      · exact fun h => absurd (h _ (List.mem_cons_self ..)) hout

theorem validate_eq_ok_iff {w : Weights} : w.validate = .ok () ↔
    (∀ r ∈ w.ranges, r.2.2.1 ≤ r.2.1 ∧ r.2.1 ≤ r.2.2.2) ∧
      w.maxProximityDistance.toNat ≤ maxDistance := by
  rw [← checkRanges_eq_ok_iff, validate]
  cases h : checkRanges w.ranges with
  | error e => simp [bind, Except.bind]
  | ok u =>
    simp only [bind, Except.bind, true_and]
    split
    · rename_i hfar
      constructor
      · intro h; cases h
      · exact fun hle => absurd hle (not_le.2 hfar)
    · rename_i hnear
      exact ⟨fun _ => not_lt.1 hnear, fun _ => rfl⟩

theorem validate_standard : standard.validate = .ok () := by decide

end Weights

/-! ## Columns -/

namespace Scorer

/-- The query `ab` on whole lines. -/
def queryAb : Query :=
  ⟨"ab", [], .fullLine, .plain, .bytes, false, [⟨'a', 'a', 0, 1⟩, ⟨'b', 'b', 1, 1⟩]⟩

/-- Its scorer with the standard weights. -/
def scorerOfAb : Scorer := .new queryAb .standard ⟨none, false, .unix⟩

/-- The problem of aligning the query with some columns. -/
def problem (s : Scorer) (columns : List Alignment.Column) : Alignment.Problem :=
  ⟨s.query.units, columns.toArray, s.query.caseSensitive, .ofWeights s.weights⟩

/-- What a match on a unit earns for where it stands: the bonus of its boundary,
    with that of the file name. -/
def unitBonus (s : Scorer) (filename : Option Span) (prev : Option CharClass)
    (unit : TextUnit) : Except Fault Int :=
  let start := (s.boundaryBonus (boundary prev (classify s.query.textMode s.style? unit.ch))).toInt
  if filename.any (·.contains unit.offset) then add32 start s.weights.filenameBonus.toInt
  else .ok start

theorem columnsFrom_cons (s : Scorer) (filename : Option Span) (prev : Option CharClass)
    (done : List Alignment.Column) (unit : TextUnit) (units : List TextUnit) :
    s.columnsFrom filename prev done (unit :: units) =
      (s.unitBonus filename prev unit).bind fun bonus =>
        let cls := classify s.query.textMode s.style? unit.ch
        s.columnsFrom filename (some cls) (⟨unit, bonus, cls == .separator⟩ :: done) units := by
  cases hbonus : s.unitBonus filename prev unit <;>
  · rw [unitBonus] at hbonus
    simp only [columnsFrom, hbonus]
    rfl

theorem columnsFrom_units (s : Scorer) (filename : Option Span) : ∀ (units : List TextUnit)
    (prev : Option CharClass) (done columns : List Alignment.Column),
    s.columnsFrom filename prev done units = .ok columns →
      columns.map (·.unit) = (done.reverse).map (·.unit) ++ units
  | [], prev, done, columns, h => by
    simp only [columnsFrom, Except.ok.injEq] at h
    simp [← h]
  | unit :: units, prev, done, columns, h => by
    rw [columnsFrom_cons] at h
    obtain ⟨bonus, -, h⟩ := bind_eq_ok h
    rw [columnsFrom_units s filename units _ _ _ h]
    simp

/-- The columns depend on the classes of the characters and the weights only. -/
theorem columnsFrom_congr {s s' : Scorer} (hmode : s'.query.textMode = s.query.textMode)
    (hstyle : s'.style? = s.style?) (hweights : s'.weights = s.weights) (filename : Option Span) :
    ∀ (units : List TextUnit) (prev : Option CharClass) (done : List Alignment.Column),
      s'.columnsFrom filename prev done units = s.columnsFrom filename prev done units
  | [], _, _ => rfl
  | unit :: units, prev, done => by
    have hbonus (b : Boundary) : s'.boundaryBonus b = s.boundaryBonus b := by
      cases b <;> simp only [boundaryBonus, hstyle, hweights]
    simp only [columnsFrom, hmode, hstyle, hweights, hbonus,
      columnsFrom_congr hmode hstyle hweights filename units]

/-- The units of the window. -/
def windowUnits (s : Scorer) (c : Candidate) (window : Span) : List TextUnit :=
  s.query.textMode.decode (window.slice c.key) (c.keySpan.start + window.start)

theorem columnsOf_units {s : Scorer} {c : Candidate} {window : Span}
    {columns : List Alignment.Column} (h : s.columnsOf c window = .ok columns) :
    columns.map (·.unit) = s.windowUnits c window := by
  have hunits := s.columnsFrom_units _ _ _ _ _ h
  simpa [windowUnits] using hunits

/-- The window of a line has no more units than the line has bytes. -/
theorem length_windowUnits_le (s : Scorer) (index : Nat) (line : String) (mode : MatchMode)
    (style : PathStyle) (window : Span) :
    (s.windowUnits (.ofLine index line mode style) window).length ≤ line.utf8ByteSize :=
  (TextMode.length_decode_le _ _ _).trans
    ((Span.size_slice_le _ _).trans (Span.size_slice_le _ _))

/-- Whether 32 bits hold every column of a candidate, as they have to for an
    alignment to be read back from the table. -/
def Addressable (s : Scorer) (c : Candidate) : Prop :=
  ∀ window, s.window c = some window → (s.windowUnits c window).length < 2 ^ 32

theorem addressable_of_size_lt (s : Scorer) {line : String} (h : line.utf8ByteSize < 2 ^ 32)
    (index : Nat) (mode : MatchMode) (style : PathStyle) :
    s.Addressable (.ofLine index line mode style) := fun window _ =>
  (s.length_windowUnits_le index line mode style window).trans_lt h

theorem length_columns {s : Scorer} {c : Candidate} {window : Span}
    {columns : List Alignment.Column} (h : s.columnsOf c window = .ok columns) :
    columns.length = (s.windowUnits c window).length := by
  rw [← columnsOf_units h, List.length_map]

section Valid
variable {s : Scorer} (hvalid : s.weights.validate = .ok ())
include hvalid

theorem boundaryBonus_mem (b : Boundary) :
    0 ≤ (s.boundaryBonus b).toInt ∧ (s.boundaryBonus b).toInt ≤ Weights.maxCharWeight := by
  obtain ⟨hranges, -⟩ := Weights.validate_eq_ok_iff.1 hvalid
  simp only [Weights.ranges, List.forall_mem_cons] at hranges
  obtain ⟨-, -, hcomponent, hword, hcamel, -⟩ := hranges
  cases b with
  | none => simp [boundaryBonus, Weights.maxCharWeight]
  | camelHump => exact hcamel
  | word => exact hword
  | component =>
    rw [boundaryBonus]
    split
    · exact hcomponent
    · exact hword

theorem unitBonus_valid (filename : Option Span) (prev : Option CharClass) (unit : TextUnit) :
    ∃ bonus, s.unitBonus filename prev unit = .ok bonus ∧
      0 ≤ bonus ∧ bonus ≤ 2 * Weights.maxCharWeight := by
  obtain ⟨hranges, -⟩ := Weights.validate_eq_ok_iff.1 hvalid
  simp only [Weights.ranges, List.forall_mem_cons] at hranges
  obtain ⟨-, -, -, -, -, ⟨hname, hname'⟩, -⟩ := hranges
  obtain ⟨hstart, hstart'⟩ := boundaryBonus_mem hvalid
    (boundary prev (classify s.query.textMode s.style? unit.ch))
  rw [unitBonus]
  simp only [Weights.maxCharWeight] at *
  split
  · exact ⟨_, by rw [add32, if_pos (by omega)], by omega, by omega⟩
  · exact ⟨_, rfl, by omega, by omega⟩

theorem columnsFrom_valid (filename : Option Span) : ∀ (units : List TextUnit)
    (prev : Option CharClass) (done : List Alignment.Column),
    (∀ c ∈ done, 0 ≤ c.bonus ∧ c.bonus ≤ 2 * Weights.maxCharWeight) →
    ∃ columns, s.columnsFrom filename prev done units = .ok columns ∧
      ∀ c ∈ columns, 0 ≤ c.bonus ∧ c.bonus ≤ 2 * Weights.maxCharWeight
  | [], prev, done, hdone => ⟨done.reverse, rfl, by simpa using hdone⟩
  | unit :: units, prev, done, hdone => by
    obtain ⟨bonus, hbonus, hrange⟩ := unitBonus_valid hvalid filename prev unit
    rw [columnsFrom_cons, hbonus]
    exact columnsFrom_valid filename units _ _ (List.forall_mem_cons.2 ⟨hrange, hdone⟩)

/-- With valid weights the columns exist, and their problem is moderate. -/
theorem columnsOf_valid (c : Candidate) (window : Span) :
    ∃ columns, s.columnsOf c window = .ok columns ∧ (s.problem columns).Moderate := by
  obtain ⟨hranges, -⟩ := Weights.validate_eq_ok_iff.1 hvalid
  simp only [Weights.ranges, List.forall_mem_cons] at hranges
  obtain ⟨hbase, hrun, -, -, -, -, hcase, hopen, hextend, hcross, -⟩ := hranges
  have hfrom : ∀ filename, ∃ columns, s.columnsFrom filename (s.classBefore c window) []
      (s.windowUnits c window) = .ok columns ∧ (s.problem columns).Moderate := by
    intro filename
    obtain ⟨columns, hcolumns, hbonus⟩ := columnsFrom_valid hvalid filename
      (s.windowUnits c window) (s.classBefore c window) [] (by simp)
    exact ⟨columns, hcolumns, hbase, hcase, hrun, hopen, hextend, hcross,
      by simpa [problem] using hbonus⟩
  exact hfrom _

theorem moderate_of_columnsOf {c : Candidate} {window : Span} {columns : List Alignment.Column}
    (h : s.columnsOf c window = .ok columns) : (s.problem columns).Moderate := by
  obtain ⟨_, heq, hp⟩ := columnsOf_valid hvalid c window
  obtain rfl := Except.ok.inj (h.symm.trans heq)
  exact hp

end Valid

theorem gap_le_of_standard {s : Scorer} (hweights : s.weights = .standard)
    (columns : List Alignment.Column) : (s.problem columns).prices.gapOpen ≤ 511 ∧
      (s.problem columns).prices.gapExtend + (s.problem columns).prices.componentGap ≤ 511 := by
  rw [problem, hweights]
  exact (by decide : (Alignment.Prices.ofWeights .standard).gapOpen ≤ 511 ∧
    (Alignment.Prices.ofWeights .standard).gapExtend +
      (Alignment.Prices.ofWeights .standard).componentGap ≤ 511)

end Scorer

end FuzzyPath
