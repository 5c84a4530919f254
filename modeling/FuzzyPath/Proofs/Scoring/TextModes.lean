/-
  FuzzyPath — ASCII candidates in either text mode.

  * `Query.reading` is a query in another text mode; `parse_reading`: an ASCII
    query is analysed in the same way in either mode;
  * `wordEnds_of_isAscii` and `sharedLeadingWords_of_isAscii`: ASCII names have
    the same words;
  * `score_reading`: an ASCII candidate has the same score, with the same
    alignment.
-/
import FuzzyPath.Proofs.Query.Exclusions
import FuzzyPath.Proofs.Scoring.Criterion
import FuzzyPath.Proofs.Scoring.SharedWords
import FuzzyPath.Proofs.Text.Ascii

namespace FuzzyPath

/-! ## Queries -/

namespace Query

/-- The query in another text mode, with the same units. -/
def reading (q : Query) (mode : TextMode) : Query := { q with textMode := mode }

/-- A query begins with the text to be matched. -/
theorem exists_append_of_split {raw delimiter positive : String} {excluded : List String}
    (h : split raw delimiter = (positive, excluded)) : ∃ rest, raw = positive ++ rest := by
  by_cases hdelim : ∃ delim, delimiter.toList = [delim]
  · obtain ⟨delim, hdelim⟩ := hdelim
    obtain ⟨pieces, rfl, -⟩ := (split_eq_iff hdelim).1 h
    cases pieces with
    | nil => exact ⟨"", by simp⟩
    | cons piece pieces =>
      refine ⟨delimiter ++ delimiter.intercalate (piece :: pieces), ?_⟩
      rw [← String.toList_inj]
      simp [String.toList_intercalate]
  · rw [split] at h
    split at h
    · rename_i delim hdelim'
      exact absurd ⟨delim, hdelim'⟩ hdelim
    · obtain rfl := congrArg Prod.fst h
      exact ⟨"", String.append_empty.symm⟩

/-- An ASCII query is analysed in the same way in either mode. -/
theorem parse_reading {raw : String} (h : IsAscii raw) (settings : QuerySettings)
    (unicodeOn : Bool) : parse raw { settings with unicodeOn := unicodeOn } =
      (parse raw settings).map (·.reading (.ofSwitch unicodeOn)) := by
  have hkind : keyKindOf { settings with unicodeOn := unicodeOn } = keyKindOf settings := rfl
  rw [parse, parse, hkind]
  cases keyKindOf settings with
  | error err => rfl
  | ok kind =>
    cases hsplit : split raw settings.delimiter with
    | mk positive excluded =>
      obtain ⟨rest, rfl⟩ := exists_append_of_split hsplit
      have hpositive : IsAscii positive := h.of_append_left
      have hupper (mode : TextMode) : (TextMode.bytes.decode positive 0).any (mode.isUpper ·.ch) =
          (TextMode.bytes.decode positive 0).any (TextMode.bytes.isUpper ·.ch) := by
        rw [Bool.eq_iff_iff, List.any_eq_true, List.any_eq_true]
        refine exists_congr fun u => and_congr_right fun hu => ?_
        rw [TextMode.isUpper_eq_bytes (TextMode.ch_of_mem_decode hpositive hu)]
      simp only [bind, Except.bind, Except.map, pure, Except.pure, reading, hupper,
        TextMode.decode_of_isAscii hpositive]

end Query

/-! ## Words -/

section
variable {mode : TextMode}

theorem wordBreaks_of_isAscii {p c : Char} (hp : p.val < 0x80) (hc : c.val < 0x80) :
    wordBreaks mode p c = wordBreaks .bytes p c := by
  rw [wordBreaks, TextMode.isAlphanumeric_eq_bytes hp, TextMode.isAlphanumeric_eq_bytes hc,
    TextMode.isUpper_eq_bytes hp, TextMode.isUpper_eq_bytes hc, ← wordBreaks]

theorem wordEndsFrom_of_isAscii : ∀ {cs : List Char} {prev : Option Char},
    (∀ c ∈ cs, c.val < 0x80) → (∀ p ∈ prev, p.val < 0x80) → ∀ offset,
    wordEndsFrom mode [] prev offset cs = wordEndsFrom .bytes [] prev offset cs
  | [], prev, _, hprev, offset => by
    have hlast : prev.any mode.isAlphanumeric = prev.any TextMode.bytes.isAlphanumeric := by
      cases prev with
      | none => rfl
      | some p => exact TextMode.isAlphanumeric_eq_bytes (hprev p rfl) mode
    rw [wordEndsFrom, wordEndsFrom, hlast]
  | c :: cs, prev, h, hprev, offset => by
    obtain ⟨hc, hcs⟩ := List.forall_mem_cons.1 h
    have hbreaks : prev.any (wordBreaks mode · c) = prev.any (wordBreaks .bytes · c) := by
      cases prev with
      | none => rfl
      | some p => exact wordBreaks_of_isAscii (hprev p rfl) hc
    rw [wordEndsFrom_cons, wordEndsFrom_cons, hbreaks,
      wordEndsFrom_of_isAscii hcs (by simpa using hc)]

/-- The words of an ASCII name end at the same places in either mode. -/
theorem wordEnds_of_isAscii {name : String} (h : IsAscii name) (mode : TextMode) :
    wordEnds mode name = wordEnds .bytes name := by
  rw [wordEnds, wordEnds]
  cases hstem : stem? name.toList with
  | none => rfl
  | some stem =>
    obtain ⟨extension, hname⟩ := exists_of_stem? hstem
    refine wordEndsFrom_of_isAscii (fun c hc => h c ?_) (by simp) 0
    rw [hname]
    exact List.mem_append_left _ hc

theorem sharedLeadingWords_of_isAscii {name : String} (h : IsAscii name) (mode : TextMode)
    (current : String) (ends : List Nat) : sharedLeadingWords mode name current ends =
      sharedLeadingWords .bytes name current ends := by
  rw [sharedLeadingWords, sharedLeadingWords]
  cases ends.getLast? with
  | none => rfl
  | some stop =>
    have hslice := h.slice ⟨stop, name.utf8ByteSize⟩
    dsimp only
    cases hchars : ((⟨stop, name.utf8ByteSize⟩ : Span).slice name).toList with
    | nil => rfl
    | cons c cs =>
      have hc : c.val < 0x80 := hslice c (hchars ▸ List.mem_cons_self)
      simp only [TextMode.isAlphanumeric_eq_bytes hc mode, TextMode.isUpper_eq_bytes hc mode]

end

/-! ## Scores -/

namespace Scorer

/-- The scorer for the query in another text mode. -/
def reading (s : Scorer) (mode : TextMode) : Scorer := { s with query := s.query.reading mode }

theorem new_reading (q : Query) (w : Weights) {context : EditorContext}
    (h : ∀ file ∈ context.currentFile, IsAscii file) (mode : TextMode) :
    new (q.reading mode) w context = (new q w context).reading mode := by
  have hcurrent : IsAscii (context.currentFile.getD "") := by
    cases hfile : context.currentFile with
    | none => exact .empty
    | some file => exact h file hfile
  have hname : IsAscii (new q w context).currentName := hcurrent.last _
  have hends : wordEnds mode (new q w context).currentName =
      wordEnds q.textMode (new q w context).currentName := by
    rw [wordEnds_of_isAscii hname mode, wordEnds_of_isAscii hname q.textMode]
  exact congrArg (fun ends => { (new q w context).reading mode with currentWordEnds := ends }) hends

variable {s : Scorer} {c : Candidate} {mode : TextMode}

theorem columnsFrom_reading (filename : Option Span) : ∀ {units : List TextUnit},
    (∀ u ∈ units, u.ch.val < 0x80) → ∀ (prev : Option CharClass) (done : List Alignment.Column),
    (s.reading mode).columnsFrom filename prev done units =
      s.columnsFrom filename prev done units
  | [], _, _, _ => rfl
  | unit :: units, h, prev, done => by
    obtain ⟨hunit, hunits⟩ := List.forall_mem_cons.1 h
    have hclass : classify mode s.style? unit.ch = classify s.query.textMode s.style? unit.ch := by
      rw [classify_of_isAscii hunit, classify_of_isAscii hunit s.query.textMode]
    have hclass' : classify (s.reading mode).query.textMode (s.reading mode).style? unit.ch =
      classify s.query.textMode s.style? unit.ch := hclass
    have hbonus :
        (s.reading mode).unitBonus filename prev unit = s.unitBonus filename prev unit := by
      rw [unitBonus, unitBonus, hclass']
      rfl
    simp only [columnsFrom_cons, hclass', hbonus, columnsFrom_reading filename hunits]

section
variable (h : IsAscii c.text)
include h

theorem classBefore_reading (window : Span) :
    (s.reading mode).classBefore c window = s.classBefore c window := by
  have hkey : IsAscii c.key := h.slice c.keySpan
  rw [classBefore, classBefore]
  split
  · rfl
  · cases hbyte : (utf8 c.key)[window.start - 1]? with
    | none => rfl
    | some b =>
      rw [utf8, utf8Chars_of_isAscii hkey, List.getElem?_map, Option.map_eq_some_iff] at hbyte
      obtain ⟨ch, hch, rfl⟩ := hbyte
      have hascii : ch.val < 0x80 := hkey ch (List.mem_of_getElem? hch)
      rw [Option.map_some, Option.map_some, ofNat_toUInt8 hascii, classify_of_isAscii hascii,
        classify_of_isAscii hascii s.query.textMode]
      rfl

theorem columnsOf_reading (window : Span) :
    (s.reading mode).columnsOf c window = s.columnsOf c window := by
  have htext : IsAscii (window.slice c.key) := (h.slice c.keySpan).slice window
  have hmode : (s.reading mode).query.textMode = mode := rfl
  have hkind : (s.reading mode).query.keyKind = s.query.keyKind := rfl
  rw [columnsOf, columnsOf, classBefore_reading h, hmode, hkind, TextMode.decode_of_isAscii htext,
    TextMode.decode_of_isAscii htext s.query.textMode]
  exact columnsFrom_reading _ (fun u hu => TextMode.ch_of_mem_decode htext hu) _ _

theorem adjusted_reading (raw : Int) (unmatched : Nat) :
    (s.reading mode).adjusted c raw unmatched = s.adjusted c raw unmatched := by
  have hname : IsAscii c.filename := IsAscii.last (h.slice c.keySpan) _
  have hwords : (s.reading mode).sharedWordBonus c = s.sharedWordBonus c := by
    have hmode : (s.reading mode).query.textMode = mode := rfl
    rw [sharedWordBonus, sharedWordBonus, hmode, sharedLeadingWords_of_isAscii hname mode,
      sharedLeadingWords_of_isAscii hname s.query.textMode]
    rfl
  rw [adjusted, adjusted, hwords]
  rfl

theorem outcome_reading (columns : List Alignment.Column) (result : Option Alignment.Solution) :
    (s.reading mode).outcome c columns result =
      (s.outcome c columns result).map id (·.reading mode) := by
  cases result with
  | none => rfl
  | some sol =>
    rw [outcome, outcome, adjusted_reading h]
    rfl

/-- An ASCII candidate has the same score in either mode, with the same alignment. -/
theorem score_reading : (s.reading mode).score c =
    (s.score c).map (Prod.map id (·.reading mode)) := by
  by_cases hadmits : s.Admits c
  · have hadmits' : (s.reading mode).Admits c := hadmits
    rw [score_of_admits hadmits, score_of_admits hadmits']
    by_cases hempty : s.query.isEmpty = true
    · rw [if_pos hempty, if_pos (show (s.reading mode).query.isEmpty = true from hempty)]
      rfl
    · rw [if_neg hempty, if_neg (show ¬ (s.reading mode).query.isEmpty = true from hempty)]
      have hwindow : (s.reading mode).window c = s.window c := rfl
      rw [hwindow]
      cases s.window c with
      | none => rfl
      | some window =>
        simp only [columnsOf_reading h]
        cases s.columnsOf c window with
        | error fault => rfl
        | ok columns =>
          have hproblem : (s.reading mode).problem columns = s.problem columns := rfl
          simp only [Except.bind, hproblem]
          cases Alignment.solve (s.problem columns) with
          | error fault => rfl
          | ok result => exact congrArg Except.ok (outcome_reading h columns result)
  · have hadmits' : ¬ (s.reading mode).Admits c := hadmits
    rw [score_of_not_admits hadmits, score_of_not_admits hadmits']
    rfl

end

end Scorer

end FuzzyPath
