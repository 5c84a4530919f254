/-
  FuzzyPath — a report in colour says the same, and colours only what matched.

  What is written is text after text, each in one colour or in none.  Those of a
  line together are the line, and those in colour are its runs.

  * a `TintedText` is a text with its colour, `TintedText.events` how it is
    written, and `shown` what a terminal shows of some events;
    `shown_events_append`: it shows the texts that were written;
  * `detailLine_inj`: the details of a result are a line of their own from which
    the result can be told;
  * `reportEvents_shows`: a report is the line of each result, in the order of the
    results, with the runs in colour.
-/
import FuzzyPath.Proofs.Json.Integers
import FuzzyPath.Proofs.Report.Lines

namespace FuzzyPath

/-! ## Texts in colour -/

/-- A text, and the colour in which it is shown, if any. -/
structure TintedText where
  tint : Option Tint
  text : String
  deriving DecidableEq, Repr

/-- How a text is written: its colour is set before it and taken back after it. -/
def TintedText.events : TintedText → List TerminalEvent
  | ⟨none, text⟩ => [.write text]
  | ⟨some tint, text⟩ => [.setTint tint, .write text, .reset]

/-- What a terminal shows, on which the colour `tint` is set in the beginning. -/
def shown (tint : Option Tint) : List TerminalEvent → List TintedText
  | [] => []
  | .write text :: events => ⟨tint, text⟩ :: shown tint events
  | .setTint next :: events => shown (some next) events
  | .reset :: events => shown none events

theorem shown_events_append (texts : List TintedText) (later : List TerminalEvent) :
    shown none (texts.flatMap TintedText.events ++ later) = texts ++ shown none later := by
  induction texts with
  | nil => rfl
  | cons t texts ih =>
    obtain ⟨tint, text⟩ := t
    rw [List.flatMap_cons, List.append_assoc, List.cons_append]
    cases tint with
    | none => exact congrArg _ ih
    | some tint => exact congrArg _ ih

theorem shown_events (texts : List TintedText) :
    shown none (texts.flatMap TintedText.events) = texts := by
  simpa [shown] using shown_events_append texts []

theorem plainText_events (texts : List TintedText) :
    plainText (texts.flatMap TintedText.events) = String.join (texts.map TintedText.text) := by
  induction texts with
  | nil => rfl
  | cons t texts ih =>
    obtain ⟨tint, text⟩ := t
    rw [List.flatMap_cons, plainText_append, ih, List.map_cons, String.join_cons]
    cases tint <;> simp [TintedText.events, plainText, TerminalEvent.text]

/-! ## Lines -/

/-- What is shown of a line: all of it, and in colour the runs, each of them cut
    out of the line. -/
structure ShowsLine (line : String) (positions : List Nat) (texts : List TintedText) : Prop where
  whole : String.join (texts.map TintedText.text) = line
  coloured : List.Forall₂ (fun run t => t.tint = some .matched ∧ run.slice? line = some t.text)
    (matchedRuns line positions) (texts.filter (·.tint.isSome))

theorem exists_writePart (line : String) (start stop : Nat) :
    ∃ texts : List TintedText, writePart line start stop = texts.flatMap TintedText.events ∧
      texts.filter (·.tint.isSome) = [] := by
  rw [writePart]
  split
  · exact ⟨[⟨none, _⟩], rfl, rfl⟩
  · exact ⟨[], rfl, rfl⟩

/-- The rest of a line is written in texts, of which the runs are in colour. -/
theorem exists_lineEventsFrom (line : String) : ∀ {runs : List Span} (written : Nat),
    (∀ run ∈ runs, run.IsPiece line) →
      ∃ texts : List TintedText,
        lineEventsFrom line written runs =
          texts.flatMap TintedText.events ++ [.write "\n"] ∧
        List.Forall₂ (fun run t => t.tint = some .matched ∧ run.slice? line = some t.text)
          runs (texts.filter (·.tint.isSome))
  | [], written, _ => by
    obtain ⟨texts, hevents, hplain⟩ := exists_writePart line written line.utf8ByteSize
    exact ⟨texts, by rw [lineEventsFrom, hevents], by rw [hplain]; exact .nil⟩
  | run :: runs, written, hruns => by
    obtain ⟨hrun, hruns⟩ := List.forall_mem_cons.1 hruns
    obtain ⟨before, hbefore, hplain⟩ := exists_writePart line written run.start
    obtain ⟨after, hafter, hcoloured⟩ := exists_lineEventsFrom line run.stop hruns
    refine ⟨before ++ ⟨some .matched, run.slice line⟩ :: after, ?_, ?_⟩
    · rw [lineEventsFrom, hbefore, hafter, List.flatMap_append, List.flatMap_cons]
      simp [TintedText.events]
    · rw [List.filter_append, hplain, List.nil_append, List.filter_cons_of_pos rfl]
      exact .cons ⟨rfl, hrun.slice?_eq⟩ hcoloured

/-- A line is shown, and then its end. -/
theorem exists_lineEvents (line : String) (positions : List Nat) :
    ∃ texts : List TintedText, ShowsLine line positions texts ∧
      lineEvents line positions =
        (texts ++ [TintedText.mk none "\n"]).flatMap TintedText.events := by
  obtain ⟨texts, hevents, hcoloured⟩ :=
    exists_lineEventsFrom line 0 (separate_matchedRuns line positions).1
  rw [← lineEvents] at hevents
  refine ⟨texts, ⟨?_, hcoloured⟩, by rw [hevents, List.flatMap_append]; rfl⟩
  have hplain := plainText_lineEvents line positions
  rw [hevents, plainText_append, plainText_events] at hplain
  exact (String.append_left_inj _).1 hplain

/-! ## Details -/

open Json

/-- A number ends where no digit follows. -/
theorem repr_append_inj {n n' : Nat} {rest rest' : List UInt8}
    (hrest : ∀ b ∈ rest.head?, isDigit b = false) (hrest' : ∀ b ∈ rest'.head?, isDigit b = false)
    (h : utf8 n.repr ++ rest = utf8 n'.repr ++ rest') : n = n' ∧ rest = rest' := by
  have htake (n : Nat) {rest : List UInt8} (hrest : ∀ b ∈ rest.head?, isDigit b = false) :
      (utf8 n.repr ++ rest).takeWhile isDigit = utf8 n.repr := by
    rw [List.takeWhile_append_of_pos (isDigit_repr n)]
    cases rest with
    | nil => simp
    | cons b rest => simp [hrest b rfl]
  have hdigits : utf8 n.repr = utf8 n'.repr := by
    rw [← htake n hrest, h, htake n' hrest']
  refine ⟨?_, by rwa [hdigits, List.append_cancel_left_eq] at h⟩
  rw [← digitsValue_repr n, hdigits, digitsValue_repr]

theorem utf8_repr_negSucc (n : Nat) :
    utf8 (Int.negSucc n).repr = 0x2d :: utf8 (n + 1).repr := by
  rw [Int.repr, utf8_append]
  rfl

/-- So does an integer, whose sign stands in front. -/
theorem repr_append_inj_int {x x' : Int} {rest rest' : List UInt8}
    (hrest : ∀ b ∈ rest.head?, isDigit b = false) (hrest' : ∀ b ∈ rest'.head?, isDigit b = false)
    (h : utf8 x.repr ++ rest = utf8 x'.repr ++ rest') : x = x' ∧ rest = rest' := by
  have hsign (n : Nat) (more more' : List UInt8) : utf8 n.repr ++ more ≠ 0x2d :: more' := by
    obtain ⟨b, digits, hrepr, hb, -⟩ := exists_repr_cons n
    rw [hrepr]
    intro heq
    obtain ⟨rfl, -⟩ := List.cons.inj heq
    cases hb
  cases x with
  | ofNat n =>
    cases x' with
    | ofNat n' =>
      obtain ⟨rfl, hsame⟩ := repr_append_inj hrest hrest' h
      exact ⟨rfl, hsame⟩
    | negSucc n' =>
      rw [utf8_repr_negSucc] at h
      exact absurd h (hsign n rest _)
  | negSucc n =>
    rw [utf8_repr_negSucc] at h
    cases x' with
    | ofNat n' => exact absurd h.symm (hsign n' rest' _)
    | negSucc n' =>
      rw [utf8_repr_negSucc] at h
      obtain ⟨hn, hsame⟩ := repr_append_inj hrest hrest' (List.cons.inj h).2
      exact ⟨by rw [Nat.succ_inj.1 hn], hsame⟩

/-- The positions after the first of a list. -/
def laterPositions (positions : List Nat) : List UInt8 :=
  positions.flatMap fun position => utf8 ", " ++ utf8 position.repr

theorem utf8_positions (first : Nat) (others : List Nat) :
    utf8 (", ".intercalate ((first :: others).map Nat.repr)) =
      utf8 first.repr ++ laterPositions others := by
  rw [utf8_intercalate, List.map_cons, List.map_cons, intercalate_cons_eq, List.flatMap_map,
    List.flatMap_map]
  rfl

theorem head_laterPositions (positions : List Nat) (rest : List UInt8) :
    ∀ b ∈ (laterPositions positions ++ 0x5d :: rest).head?, isDigit b = false := by
  cases positions with
  | nil => rintro _ ⟨⟩; rfl
  | cons _ _ => rintro _ ⟨⟩; rfl

theorem laterPositions_append_inj : ∀ {positions positions' : List Nat} {rest rest' : List UInt8},
    laterPositions positions ++ 0x5d :: rest = laterPositions positions' ++ 0x5d :: rest' →
      positions = positions'
  | [], [], _, _, _ => rfl
  | [], _ :: _, _, _, h => by cases h
  | _ :: _, [], _, _, h => by cases h
  | position :: positions, position' :: positions', rest, rest', h => by
    have hcons (position : Nat) (positions : List Nat) (rest : List UInt8) :
        laterPositions (position :: positions) ++ rest =
          utf8 ", " ++ (utf8 position.repr ++ (laterPositions positions ++ rest)) := by
      rw [laterPositions, List.flatMap_cons, List.append_assoc, List.append_assoc]
      rfl
    rw [hcons, hcons] at h
    obtain ⟨rfl, hlater⟩ := repr_append_inj (head_laterPositions positions rest)
      (head_laterPositions positions' rest') (List.append_cancel_left h)
    rw [laterPositions_append_inj hlater]

/-- Positions with commas between them end at the bracket. -/
theorem positions_append_inj {positions positions' : List Nat} {rest rest' : List UInt8}
    (h : utf8 (", ".intercalate (positions.map Nat.repr)) ++ 0x5d :: rest =
      utf8 (", ".intercalate (positions'.map Nat.repr)) ++ 0x5d :: rest') :
    positions = positions' := by
  have hempty (first : Nat) (others : List Nat) (rest rest' : List UInt8) :
      0x5d :: rest' ≠
        utf8 (", ".intercalate ((first :: others).map Nat.repr)) ++ 0x5d :: rest := by
    obtain ⟨b, digits, hrepr, hb, -⟩ := exists_repr_cons first
    rw [utf8_positions, hrepr]
    intro heq
    obtain ⟨rfl, -⟩ := List.cons.inj heq
    cases hb
  cases positions with
  | nil =>
    cases positions' with
    | nil => rfl
    | cons first' others' => exact absurd h (hempty first' others' rest' rest)
  | cons first others =>
    cases positions' with
    | nil => exact absurd h.symm (hempty first others rest rest')
    | cons first' others' =>
      rw [utf8_positions, utf8_positions, List.append_assoc, List.append_assoc] at h
      obtain ⟨rfl, hothers⟩ := repr_append_inj (head_laterPositions others rest)
        (head_laterPositions others' rest') h
      rw [laterPositions_append_inj hothers]

/-- The details of a result without the end of their line. -/
def detailLine (r : Ranked) : String :=
  s!"  score: {r.score}; index: {r.index}; positions: [" ++
    ", ".intercalate (r.positions.map Nat.repr) ++ "]"

theorem detailText_eq (r : Ranked) : detailText r = detailLine r ++ "\n" := by
  rw [detailLine, String.append_assoc]
  rfl

theorem utf8_detailLine (r : Ranked) :
    utf8 (detailLine r) = utf8 "  score: " ++ (utf8 r.score.repr ++ (utf8 "; index: " ++
      (utf8 r.index.repr ++ (utf8 "; positions: [" ++
        (utf8 (", ".intercalate (r.positions.map Nat.repr)) ++ [0x5d]))))) := by
  have hscore : toString r.score = r.score.repr := rfl
  have hindex : toString r.index = r.index.repr := rfl
  simp only [detailLine, utf8_append, hscore, hindex, List.append_assoc]
  rfl

/-- From the details of a result all of it can be told. -/
theorem detailLine_inj {r r' : Ranked} (h : detailLine r = detailLine r') : r = r' := by
  have hbytes := congrArg utf8 h
  rw [utf8_detailLine, utf8_detailLine] at hbytes
  have hend (text : String) (rest : List UInt8) (htext : utf8 text = 0x3b :: (utf8 text).tail) :
      ∀ b ∈ (utf8 text ++ rest).head?, isDigit b = false := by
    rw [htext]
    rintro _ ⟨⟩
    rfl
  obtain ⟨hscore, hindex⟩ := repr_append_inj_int (hend "; index: " _ rfl)
    (hend "; index: " _ rfl) (List.append_cancel_left hbytes)
  obtain ⟨hindex, hpositions⟩ := repr_append_inj (hend "; positions: [" _ rfl)
    (hend "; positions: [" _ rfl) (List.append_cancel_left hindex)
  have hpositions := positions_append_inj (List.append_cancel_left hpositions)
  obtain ⟨score, index, positions⟩ := r
  obtain ⟨score', index', positions'⟩ := r'
  obtain ⟨rfl, rfl, rfl⟩ : score = score' ∧ index = index' ∧ positions = positions' :=
    ⟨hscore, hindex, hpositions⟩
  rfl

/-- The details of a result take one line. -/
theorem lineBreak_not_mem_detailLine (r : Ranked) : '\n' ∉ (detailLine r).toList := by
  have hdigits (n : Nat) : (0x0a : UInt8) ∉ utf8 n.repr := fun h => by
    have hdigit := isDigit_repr n _ h
    cases hdigit
  have hscore : (0x0a : UInt8) ∉ utf8 r.score.repr := by
    cases r.score with
    | ofNat n => exact hdigits n
    | negSucc n =>
      rw [utf8_repr_negSucc]
      exact List.not_mem_cons_of_ne_of_not_mem (by decide) (hdigits (n + 1))
  have hpositions : (0x0a : UInt8) ∉ utf8 (", ".intercalate (r.positions.map Nat.repr)) := by
    cases r.positions with
    | nil => decide
    | cons first others =>
      have hcomma : (0x0a : UInt8) ∉ utf8 ", " := by decide
      rw [utf8_positions, laterPositions]
      simp [hdigits, hcomma]
  intro hmem
  have hbyte : (0x0a : UInt8) ∈ utf8 (detailLine r) := List.mem_flatMap.2 ⟨'\n', hmem, by decide⟩
  have hwords : (0x0a : UInt8) ∉
      utf8 "  score: " ++ utf8 "; index: " ++ utf8 "; positions: [" ++ [0x5d] := by decide
  simp only [List.mem_append, not_or] at hwords
  simp [utf8_detailLine, hwords, hdigits, hscore, hpositions] at hbyte

/-! ## Reports -/

/-- The results that have a line, with their lines. -/
def withLines (items : List String) (results : List Ranked) : List (String × Ranked) :=
  results.filterMap fun r => (items[r.index]?).map (·, r)

/-- What is shown of a result: its line, of which the end is in no colour, and on
    demand one text for its details. -/
def ShowsResult (details : Bool) (line : String) (r : Ranked) (texts : List TintedText) : Prop :=
  ∃ parts, ShowsLine line r.positions parts ∧
    texts = parts ++ TintedText.mk none "\n" ::
      if details then [TintedText.mk (some .detail) (detailLine r ++ "\n")] else []

theorem exists_resultEvents {items : Array String} {line : String} (details : Bool) {r : Ranked}
    (hline : items[r.index]? = some line) :
    ∃ texts, ShowsResult details line r texts ∧
      resultEvents items details r = texts.flatMap TintedText.events := by
  obtain ⟨parts, hparts, hevents⟩ := exists_lineEvents line r.positions
  refine ⟨_, ⟨parts, hparts, rfl⟩, ?_⟩
  rw [resultEvents, hline]
  simp only
  rw [hevents, List.append_cons parts, List.flatMap_append]
  cases details with
  | false => simp
  | true => simp [detailEvents, TintedText.events, detailText_eq]

/-- The texts of all results, one after the other. -/
theorem exists_reportEvents (items : List String) (details : Bool) : ∀ results : List Ranked,
    ∃ texts : List (List TintedText),
      List.Forall₂ (fun lineOf t => ShowsResult details lineOf.1 lineOf.2 t)
        (withLines items results) texts ∧
      reportEvents items results details = texts.flatten.flatMap TintedText.events
  | [] => ⟨[], .nil, rfl⟩
  | r :: results => by
    obtain ⟨texts, hshown, hevents⟩ := exists_reportEvents items details results
    have hcons : reportEvents items (r :: results) details =
        resultEvents items.toArray details r ++ reportEvents items results details :=
      List.flatMap_cons
    rw [hcons, hevents]
    cases hline : items[r.index]? with
    | none =>
      refine ⟨texts, by rwa [withLines, List.filterMap_cons, hline], ?_⟩
      rw [resultEvents, List.getElem?_toArray, hline]
      rfl
    | some line =>
      obtain ⟨first, hfirst, hresult⟩ := exists_resultEvents details
        (show items.toArray[r.index]? = some line by rwa [List.getElem?_toArray])
      refine ⟨first :: texts, ?_, by rw [hresult, List.flatten_cons, List.flatMap_append]⟩
      rw [withLines, List.filterMap_cons, hline]
      exact .cons hfirst hshown

/-- A report shows the line of each result that has one, in the order of the
    results, the runs of matched characters in their colour and nothing else of the
    line in any; without details this is all its text.  No line is cut inside a
    character.  The details of a result are one line after its own, in a colour of
    their own, and tell which result it is. -/
theorem reportEvents_shows (items : List String) (results : List Ranked) :
    plainText (reportEvents items results false) =
        String.join ((withLines items results).map fun lineOf => lineOf.1 ++ "\n") ∧
      (∀ details, ∃ texts : List (List TintedText),
        List.Forall₂ (fun lineOf t => ShowsResult details lineOf.1 lineOf.2 t)
          (withLines items results) texts ∧
        reportEvents items results details = texts.flatten.flatMap TintedText.events ∧
        shown none (reportEvents items results details) = texts.flatten) ∧
      (∀ lineOf ∈ withLines items results, lineEvents? lineOf.1 lineOf.2.positions =
        some (lineEvents lineOf.1 lineOf.2.positions)) ∧
      ∀ r, '\n' ∉ (detailLine r).toList ∧ ∀ r', detailLine r = detailLine r' → r = r' := by
  refine ⟨?_, fun details => ?_, fun lineOf _ => lineEvents?_eq lineOf.1 lineOf.2.positions,
    fun r => ⟨lineBreak_not_mem_detailLine r, fun r' => detailLine_inj⟩⟩
  · change reportText items results false false = _
    rw [reportText_plain, withLines, List.map_filterMap, List.map_filterMap]
    simp only [Option.map_map]
    rfl
  · obtain ⟨texts, hshown, hevents⟩ := exists_reportEvents items details results
    exact ⟨texts, hshown, hevents, by rw [hevents, shown_events]⟩

example : shown none (reportEvents ["abc"] [⟨7, 3, []⟩, ⟨42, 0, [1, 9]⟩] true) =
    [⟨none, "a"⟩, ⟨some .matched, "b"⟩, ⟨none, "c"⟩, ⟨none, "\n"⟩,
      ⟨some .detail, "  score: 42; index: 0; positions: [1, 9]\n"⟩] := by
  decide +kernel

end FuzzyPath
