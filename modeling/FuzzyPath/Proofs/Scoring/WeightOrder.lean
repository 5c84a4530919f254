/-
  FuzzyPath — higher bonuses and lower penalties.

  * `Weights.Below` compares weights: no bonus is less in the second ones, and
    no penalty is more;
  * `problem_below`: so are the problems that they make of a candidate;
  * `scaled_mono` and `adjust_mono`: the parts of a score keep the order;
  * `score_mono`: the same candidates match, and none has a lower score.
-/
import FuzzyPath.Proofs.Alignment.Improvement
import FuzzyPath.Proofs.Scoring.CurrentFile

namespace FuzzyPath

/-- No bonus of `w` is more, and no penalty less, than that of `w'`; the steps
    away that count are part of a penalty. -/
structure Weights.Below (w w' : Weights) : Prop where
  matchBase : w.matchBase ≤ w'.matchBase
  consecutiveBonus : w.consecutiveBonus ≤ w'.consecutiveBonus
  componentStartBonus : w.componentStartBonus ≤ w'.componentStartBonus
  wordStartBonus : w.wordStartBonus ≤ w'.wordStartBonus
  camelCaseBonus : w.camelCaseBonus ≤ w'.camelCaseBonus
  filenameBonus : w.filenameBonus ≤ w'.filenameBonus
  exactCaseBonus : w.exactCaseBonus ≤ w'.exactCaseBonus
  sharedWordBonus : w.sharedWordBonus ≤ w'.sharedWordBonus
  lengthScale : w.lengthScale ≤ w'.lengthScale
  gapOpenPenalty : w'.gapOpenPenalty ≤ w.gapOpenPenalty
  gapExtendPenalty : w'.gapExtendPenalty ≤ w.gapExtendPenalty
  componentGapPenalty : w'.componentGapPenalty ≤ w.componentGapPenalty
  proximityPenalty : w'.proximityPenalty ≤ w.proximityPenalty
  maxProximityDistance : w'.maxProximityDistance ≤ w.maxProximityDistance
  currentFilePenalty : w'.currentFilePenalty ≤ w.currentFilePenalty

theorem Weights.Below.refl (w : Weights) : w.Below w := by constructor <;> simp

theorem Weights.lengthScale_mem {w : Weights} (hvalid : w.validate = .ok ()) :
    1 ≤ w.lengthScale.toInt ∧ w.lengthScale.toInt ≤ maxLengthScale := by
  obtain ⟨hranges, -⟩ := validate_eq_ok_iff.1 hvalid
  simp only [ranges, List.forall_mem_cons] at hranges
  obtain ⟨-, -, -, -, -, -, -, -, -, -, hscale, -⟩ := hranges
  exact hscale

theorem saturate64_mono {x y : Int} (h : x ≤ y) : saturate64 x ≤ saturate64 y := by
  rw [saturate64, saturate64]
  split_ifs <;> omega

theorem ediv_le_ediv_of_mul_le {a b d e : Int} (hd : 0 < d) (he : 0 < e) (h : a * e ≤ b * d) :
    a / d ≤ b / e := by
  rw [Int.le_ediv_iff_mul_le he]
  refine le_of_mul_le_mul_right ?_ hd
  calc a / d * e * d
    _ = a / d * d * e := by ring
    _ ≤ a * e := mul_le_mul_of_nonneg_right (Int.ediv_mul_le a hd.ne') he.le
    _ ≤ b * d := h

namespace Scorer

/-! ## Scaling -/

/-- Of the units that are left, a higher length scale takes a smaller part. -/
theorem scale_mul_le {scale scale' : Int} (hscale : 0 ≤ scale) (hle : scale ≤ scale') (n : Nat) :
    scale * saturate64 (scale' + n) ≤ scale' * saturate64 (scale + n) := by
  have hcap {x : Int} (hx : 0 ≤ x) : saturate64 x = min x 9223372036854775807 := by
    rw [saturate64]; split_ifs <;> omega
  -- The sum on the right may have stopped at the end of the range, or not.
  have hrest := mul_le_mul_of_nonneg_right hle (Int.natCast_nonneg n)
  rw [hcap (x := scale + n) (by omega), hcap (x := scale' + n) (by omega),
    mul_min_of_nonneg _ _ (hscale.trans hle), le_min_iff]
  constructor
  · calc scale * min (scale' + n) 9223372036854775807
      _ ≤ scale * (scale' + n) := mul_le_mul_of_nonneg_left (min_le_left _ _) hscale
      _ ≤ scale' * (scale + n) := by linarith [mul_comm scale scale']
  · exact mul_le_mul hle (min_le_right _ _) (by omega) (hscale.trans hle)

/-- A higher length scale takes no more off.  The worth is a 32-bit number, so
    that the product stays within 64 bits. -/
theorem scaled_mono {scale scale' raw raw' : Int} (hscale : 1 ≤ scale) (hle : scale ≤ scale')
    (hmost : scale' ≤ Weights.maxLengthScale) (hraw : max raw 1 ≤ max raw' 1)
    (hbound : raw' ≤ 2147483647) (unmatched : Nat) :
    scaled scale raw unmatched ≤ scaled scale' raw' unmatched := by
  have hworth {r c : Int} (hr : 1 ≤ r) (hr' : r ≤ 2147483647) (hc : 1 ≤ c)
      (hc' : c ≤ Weights.maxLengthScale) :
      saturate64 (saturate64 (r * 1000) * c) = r * 1000 * c := by
    have hprod : r * 1000 * c ≤ 2147483647 * 1000 * 1048576 :=
      mul_le_mul (by omega) hc' (by omega) (by omega)
    have hpos : 0 ≤ r * 1000 * c := mul_nonneg (by omega) (by omega)
    rw [saturate64_of_mem (x := r * 1000) (by omega) (by omega),
      saturate64_of_mem (by omega) (by omega)]
  have hdiv {c : Int} (hc : 1 ≤ c) : 0 < saturate64 (c + unmatched) := by
    rw [saturate64]; split_ifs <;> omega
  rw [scaled, scaled, max_eq_left hscale, max_eq_left (hscale.trans hle)]
  generalize hr : max raw 1 = r at hraw ⊢
  generalize hr' : max raw' 1 = r' at hraw ⊢
  rw [hworth (by omega) (by omega) hscale (hle.trans hmost),
    hworth (by omega) (by omega) (hscale.trans hle) hmost,
    Int.tdiv_eq_ediv_of_nonneg (mul_nonneg (by omega) (by omega)),
    Int.tdiv_eq_ediv_of_nonneg (mul_nonneg (by omega) (by omega))]
  refine ediv_le_ediv_of_mul_le (hdiv hscale) (hdiv (hscale.trans hle)) ?_
  have hcross := scale_mul_le (by omega) hle unmatched
  have hpos := hdiv (c := scale) hscale
  calc r * 1000 * scale * saturate64 (scale' + unmatched)
    _ = r * 1000 * (scale * saturate64 (scale' + unmatched)) := by ring
    _ ≤ r' * 1000 * (scale' * saturate64 (scale + unmatched)) :=
        mul_le_mul (by omega) hcross (mul_nonneg (by omega) (hdiv (hscale.trans hle)).le) (by omega)
    _ = r' * 1000 * scale' * saturate64 (scale + unmatched) := by ring

/-! ## Problems -/

/-- The scorer with other weights. -/
def weighing (s : Scorer) (w : Weights) : Scorer := { s with weights := w }

variable {s : Scorer} {c : Candidate} {w' : Weights}

section Below
variable (h : s.weights.Below w')
include h

theorem prices_below : (Alignment.Prices.ofWeights s.weights).Below (.ofWeights w') where
  matchBase := Int32.le_iff_toInt_le.1 h.matchBase
  exactCase := Int32.le_iff_toInt_le.1 h.exactCaseBonus
  consecutive := Int32.le_iff_toInt_le.1 h.consecutiveBonus
  gapOpen := Int32.le_iff_toInt_le.1 h.gapOpenPenalty
  gapExtend := Int32.le_iff_toInt_le.1 h.gapExtendPenalty
  componentGap := Int32.le_iff_toInt_le.1 h.componentGapPenalty

theorem boundaryBonus_le (b : Boundary) :
    (s.boundaryBonus b).toInt ≤ ((s.weighing w').boundaryBonus b).toInt := by
  rw [← Int32.le_iff_toInt_le]
  have hstyle : (s.weighing w').style? = s.style? := rfl
  cases b with
  | none => exact Int32.le_refl 0
  | camelHump => exact h.camelCaseBonus
  | word => exact h.wordStartBonus
  | component =>
    rw [boundaryBonus, boundaryBonus, hstyle]
    split
    · exact h.componentStartBonus
    · exact h.wordStartBonus

theorem unitBonus_le {filename : Option Span} {prev : Option CharClass} {unit : TextUnit}
    {bonus bonus' : Int} (hbonus : s.unitBonus filename prev unit = .ok bonus)
    (hbonus' : (s.weighing w').unitBonus filename prev unit = .ok bonus') : bonus ≤ bonus' := by
  have hstart := boundaryBonus_le h (boundary prev (classify s.query.textMode s.style? unit.ch))
  have hname := Int32.le_iff_toInt_le.1 h.filenameBonus
  rw [unitBonus] at hbonus hbonus'
  split at hbonus
  · rename_i hin
    rw [if_pos hin] at hbonus'
    rw [eq_of_add32 hbonus, eq_of_add32 hbonus']
    exact add_le_add hstart hname
  · rename_i hout
    rw [if_neg hout] at hbonus'
    rw [← Except.ok.inj hbonus, ← Except.ok.inj hbonus']
    exact hstart

theorem columnsFrom_below (filename : Option Span) : ∀ {units : List TextUnit}
    {prev : Option CharClass} {done done' columns columns' : List Alignment.Column},
    List.Forall₂ Alignment.Column.Below done done' →
      s.columnsFrom filename prev done units = .ok columns →
      (s.weighing w').columnsFrom filename prev done' units = .ok columns' →
      List.Forall₂ Alignment.Column.Below columns columns'
  | [], prev, done, done', columns, columns', hdone, hcolumns, hcolumns' => by
    obtain rfl := Except.ok.inj hcolumns
    obtain rfl := Except.ok.inj hcolumns'
    exact List.forall₂_reverse_iff.2 hdone
  | unit :: units, prev, done, done', columns, columns', hdone, hcolumns, hcolumns' => by
    rw [columnsFrom_cons] at hcolumns hcolumns'
    obtain ⟨bonus, hbonus, hcolumns⟩ := bind_eq_ok hcolumns
    obtain ⟨bonus', hbonus', hcolumns'⟩ := bind_eq_ok hcolumns'
    refine columnsFrom_below filename (.cons ?_ hdone) hcolumns hcolumns'
    exact ⟨rfl, rfl, unitBonus_le h hbonus hbonus'⟩

/-- In the problem of a candidate nothing is worth less. -/
theorem problem_below {window : Span} {columns columns' : List Alignment.Column}
    (hcolumns : s.columnsOf c window = .ok columns)
    (hcolumns' : (s.weighing w').columnsOf c window = .ok columns') :
    (s.problem columns).Below ((s.weighing w').problem columns') where
  query := rfl
  caseSensitive := rfl
  columns := columnsFrom_below h _ .nil hcolumns hcolumns'
  prices := prices_below h

/-! ## Scores -/

theorem sharedWordBonus_le : s.sharedWordBonus c ≤ (s.weighing w').sharedWordBonus c := by
  have hbonus := Int64.le_iff_toInt_le.1 h.sharedWordBonus
  by_cases hoff : s.currentWordEnds.isEmpty = true ∨ s.query.keyKind ≠ .path
  · have heq : s.sharedWordBonus c = 0 := if_pos hoff
    have heq' : (s.weighing w').sharedWordBonus c = 0 := if_pos hoff
    exact (heq.trans heq'.symm).le
  · have heq : s.sharedWordBonus c = _ := if_neg hoff
    have heq' : (s.weighing w').sharedWordBonus c = _ := if_neg hoff
    rw [heq, heq']
    exact saturate64_mono (mul_le_mul_of_nonneg_left hbonus (Int.natCast_nonneg _))

theorem penalized_mono {x y : Int} (hxy : x ≤ y) :
    s.penalized c x ≤ (s.weighing w').penalized c y := by
  have hpenalty := Int64.le_iff_toInt_le.1 h.currentFilePenalty
  have hcurrent : (s.weighing w').isCurrent c = s.isCurrent c := rfl
  rw [penalized, penalized, hcurrent]
  split
  · exact saturate64_mono (sub_le_sub hxy hpenalty)
  · exact hxy

section Valid
variable (hvalid' : w'.validate = .ok ())
include hvalid'

theorem proximityPenalty_le : (s.weighing w').proximityPenalty c ≤ s.proximityPenalty c := by
  obtain ⟨hranges, -⟩ := Weights.validate_eq_ok_iff.1 hvalid'
  simp only [Weights.ranges, List.forall_mem_cons] at hranges
  obtain ⟨-, -, -, -, -, -, -, -, -, -, -, -, ⟨hnonneg, -⟩, -⟩ := hranges
  have hmost := UInt64.le_iff_toNat_le.1 h.maxProximityDistance
  have hprice := Int64.le_iff_toInt_le.1 h.proximityPenalty
  by_cases hoff : s.context.currentFile.isNone = true ∨ s.query.keyKind ≠ .path
  · have heq : s.proximityPenalty c = 0 := if_pos hoff
    have heq' : (s.weighing w').proximityPenalty c = 0 := if_pos hoff
    exact (heq'.trans heq.symm).le
  · have heq : s.proximityPenalty c = _ := if_neg hoff
    have heq' : (s.weighing w').proximityPenalty c = _ := if_neg hoff
    rw [heq, heq']
    have hsteps : min (directoryDistance c.directoryNames s.currentDirectories : Int)
        w'.maxProximityDistance.toNat ≤
          min (directoryDistance c.directoryNames s.currentDirectories : Int)
            s.weights.maxProximityDistance.toNat := by omega
    exact saturate64_mono (mul_le_mul hsteps hprice hnonneg (by omega))

/-- No adjustment takes more off, or gives less. -/
theorem adjust_mono {part part' : Int} (hle : part ≤ part') :
    s.adjust c part ≤ (s.weighing w').adjust c part' := by
  have hnear := saturate64_mono (sub_le_sub hle (proximityPenalty_le (c := c) h hvalid'))
  exact penalized_mono h (saturate64_mono (add_le_add hnear (sharedWordBonus_le h)))

variable (hvalid : s.weights.validate = .ok ())
include hvalid

theorem alignmentPart_mono (hquery : s.query.units ≠ []) {part part' : Option Int}
    (hpart : s.alignmentPart c = .ok part) (hpart' : (s.weighing w').alignmentPart c = .ok part') :
    Option.Rel (· ≤ ·) part part' := by
  have hwindow : (s.weighing w').window c = s.window c := rfl
  rcases alignmentPart_cases hpart with
    ⟨hw, rfl⟩ | ⟨window, columns, result, hw, hcolumns, hresult, rfl⟩
  · rcases alignmentPart_cases hpart' with ⟨-, rfl⟩ | ⟨_, _, _, hw', -⟩
    · exact .none
    · cases hw.symm.trans (hwindow.symm.trans hw')
  · rcases alignmentPart_cases hpart' with
      ⟨hw', -⟩ | ⟨window', columns', result', hw', hcolumns', hresult', rfl⟩
    · cases hw.symm.trans (hwindow.symm.trans hw')
    · obtain rfl : window = window' := Option.some.inj (hw.symm.trans (hwindow.symm.trans hw'))
      have hbelow := problem_below h hcolumns hcolumns'
      have hp' := moderate_of_columnsOf (s := s.weighing w') hvalid' hcolumns'
      have hsolved := Alignment.solve_mono hbelow (moderate_of_columnsOf hvalid hcolumns) hp' hquery
        hresult hresult'
      have hlen : columns.length = columns'.length := hbelow.columns.length_eq
      rw [hlen]
      cases hsolved with
      | none => exact .none
      | some hraw =>
        have hbound := Alignment.score_le_of_solve hp' hquery hresult'
        exact .some (scaled_mono (Weights.lengthScale_mem hvalid).1
          (Int64.le_iff_toInt_le.1 h.lengthScale) (Weights.lengthScale_mem hvalid').2 hraw hbound _)

theorem score_weighing_mono {r r' : Option Int} {t t' : Scorer} (hscore : s.score c = .ok (r, t))
    (hscore' : (s.weighing w').score c = .ok (r', t')) : Option.Rel (· ≤ ·) r r' := by
  by_cases hadmits : s.Admits c
  · have hadmits' : (s.weighing w').Admits c := hadmits
    by_cases hquery : s.query.units = []
    · rw [score_of_empty hadmits hquery] at hscore
      rw [score_of_empty (s := s.weighing w') hadmits' hquery] at hscore'
      obtain ⟨rfl, -⟩ := Prod.mk.inj (Except.ok.inj hscore)
      obtain ⟨rfl, -⟩ := Prod.mk.inj (Except.ok.inj hscore')
      exact .some (penalized_mono h le_rfl)
    · obtain ⟨part, hpart, rfl⟩ := exists_part_of_score hadmits hquery hscore
      obtain ⟨part', hpart', rfl⟩ := exists_part_of_score hadmits' hquery hscore'
      cases alignmentPart_mono h hvalid' hvalid hquery hpart hpart' with
      | none => exact .none
      | some hle => exact .some (adjust_mono h hvalid' hle)
  · have hadmits' : ¬ (s.weighing w').Admits c := hadmits
    rw [score_of_not_admits hadmits] at hscore
    rw [score_of_not_admits hadmits'] at hscore'
    obtain ⟨rfl, -⟩ := Prod.mk.inj (Except.ok.inj hscore)
    obtain ⟨rfl, -⟩ := Prod.mk.inj (Except.ok.inj hscore')
    exact .none

end Valid

end Below

/-- With higher bonuses and lower penalties, the same candidates match and none
    has a lower score. -/
theorem score_mono {w w' : Weights} (hvalid : w.validate = .ok ()) (hvalid' : w'.validate = .ok ())
    (h : w.Below w') (query : Query) (context : EditorContext) (c : Candidate)
    {r r' : Option Int} {t t' : Scorer} (hscore : (new query w context).score c = .ok (r, t))
    (hscore' : (new query w' context).score c = .ok (r', t')) :
    (r.isSome = true ↔ r'.isSome = true) ∧ ∀ x ∈ r, ∀ y ∈ r', x ≤ y := by
  have hrel : Option.Rel (· ≤ ·) r r' :=
    score_weighing_mono (s := new query w context) h hvalid' hvalid hscore hscore'
  cases hrel with
  | none => simp
  | some hle => simpa using hle

/-- Weights above the standard ones: a start of a word earns more and the first
    character of a gap costs less. -/
def generousWeights : Weights := { Weights.standard with wordStartBonus := 20, gapOpenPenalty := 1 }

theorem score_mono_axb : Weights.standard.validate = .ok () ∧ generousWeights.validate = .ok () ∧
    Weights.standard.Below generousWeights ∧ ∃ x y t t',
      (new queryAb .standard ⟨none, false, .unix⟩).score (.ofLine 0 "axb" .fullLine .unix) =
        .ok (some x, t) ∧
      (new queryAb generousWeights ⟨none, false, .unix⟩).score (.ofLine 0 "axb" .fullLine .unix) =
        .ok (some y, t') ∧ x ≤ y := by
  have hvalid : Weights.standard.validate = .ok () := by decide
  have hvalid' : generousWeights.validate = .ok () := by decide
  have hbelow : Weights.standard.Below generousWeights := by constructor <;> decide
  have hfst : ((new queryAb .standard ⟨none, false, .unix⟩).score
      (.ofLine 0 "axb" .fullLine .unix)).map Prod.fst = .ok (some 43658) := by decide +kernel
  have hfst' : ((new queryAb generousWeights ⟨none, false, .unix⟩).score
      (.ofLine 0 "axb" .fullLine .unix)).map Prod.fst = .ok (some 52589) := by decide +kernel
  obtain ⟨⟨_, t⟩, hscore, rfl⟩ := map_eq_ok hfst
  obtain ⟨⟨_, t'⟩, hscore', rfl⟩ := map_eq_ok hfst'
  obtain ⟨-, hle⟩ :=
    score_mono hvalid hvalid' hbelow queryAb ⟨none, false, .unix⟩ _ hscore hscore'
  exact ⟨hvalid, hvalid', hbelow, _, _, t, t', hscore, hscore', hle _ rfl _ rfl⟩

end Scorer

end FuzzyPath
