/-
  FuzzyPath — highlight patterns for the editor.

  A pattern is written for an editor that reads it as "very nomagic" and with
  case: a backslash begins every special atom, and all other characters stand
  for themselves.

  * an `Atom` is a literal character, the start or the end of the line, or a
    bound of the match; a `Piece` is an atom, or atoms that have to stand before
    or after the match without being part of it; a `Pattern` has alternatives,
    each a row of pieces;
  * `Pattern.text` is how a pattern is written;
  * `Pattern.ofRuns` matches one line only, and there the runs of matched
    characters; `highlightPattern` is its text, empty if nothing is
    highlighted.
-/
import FuzzyPath.Highlight.Mode
import FuzzyPath.Highlight.Runs

namespace FuzzyPath

/-! ## Patterns and how they are written -/

/-- The smallest parts of a pattern. -/
inductive Atom where
  | literal (c : Char)
  | lineStart
  | lineEnd
  /-- The match begins here. -/
  | matchStart
  /-- The match ends here. -/
  | matchEnd
  deriving DecidableEq, Repr

/-- The parts of an alternative. -/
inductive Piece where
  | atom (a : Atom)
  /-- Has to stand directly before, and is not part of the match. -/
  | behind (atoms : List Atom)
  /-- Has to stand directly after, and is not part of the match. -/
  | ahead (atoms : List Atom)
  deriving DecidableEq, Repr

/-- The alternatives of a pattern. -/
structure Pattern where
  alternatives : List (List Piece)
  deriving DecidableEq, Repr

/-- How an atom is written.  Of the literal characters only the backslash has
    to be marked, by another one. -/
def Atom.text : Atom → List Char
  | literal c => if c = '\\' then ['\\', '\\'] else [c]
  | lineStart => ['\\', '^']
  | lineEnd => ['\\', '$']
  | matchStart => ['\\', 'z', 's']
  | matchEnd => ['\\', 'z', 'e']

/-- How a group that is not part of the match is written; `mark` tells on which
    side it stands. -/
def groupText (atoms : List Atom) (mark : List Char) : List Char :=
  ['\\', '%', '('] ++ atoms.flatMap Atom.text ++ ['\\', ')', '\\', '@'] ++ mark

def Piece.text : Piece → List Char
  | atom a => a.text
  | behind atoms => groupText atoms ['<', '=']
  | ahead atoms => groupText atoms ['=']

namespace Pattern

/-- How a pattern is written, after the marks for "very nomagic" and "match
    case". -/
def text (p : Pattern) : String :=
  String.ofList (['\\', 'V', '\\', 'C'] ++
    ['\\', '|'].intercalate (p.alternatives.map (·.flatMap Piece.text)))

/-! ## Patterns for one line -/

/-- A text as atoms. -/
def literals (text : String) : List Atom := text.toList.map .literal

/-- The text of `item` before a byte offset. -/
def before (item : String) (offset : Nat) : List Atom :=
  literals ((⟨0, offset⟩ : Span).slice item)

/-- The text of `item` after a byte offset. -/
def after (item : String) (offset : Nat) : List Atom :=
  literals ((⟨offset, item.utf8ByteSize⟩ : Span).slice item)

/-- The line made of `lead` and `item`, with the span `shown` of the item as
    the match. -/
def bounded (lead item : String) (shown : Span) : List Piece :=
  let atoms : List Atom :=
    [.lineStart] ++ literals lead ++ before item shown.start ++
      [.matchStart] ++ literals (shown.slice item) ++
      [.matchEnd] ++ after item shown.stop ++ [.lineEnd]
  atoms.map .atom

/-- One run of the item, where the rest of the line stands around it. -/
def surrounded (lead item : String) (run : Span) : List Piece :=
  [.behind ([.lineStart] ++ literals lead ++ before item run.start)] ++
    (literals (run.slice item)).map .atom ++
    [.ahead (after item run.stop ++ [.lineEnd])]

/-- The pattern that matches the line made of `lead` and `item`, and in it the
    runs or all between the first and the last; `none` if nothing is shown. -/
def ofRuns (mode : HighlightMode) (lead item : String) (runs : List Span) : Option Pattern :=
  match mode, runs with
  | .none, _ | _, [] => none
  | .basic, first :: rest =>
    some ⟨[bounded lead item ⟨first.start, (rest.getLastD first).stop⟩]⟩
  | .full, runs => some ⟨runs.map (surrounded lead item)⟩

end Pattern

/-- The pattern that highlights the matched byte offsets of `item`, which the
    editor draws after the text `lead`.  It is empty if there is nothing to
    highlight. -/
def highlightPattern (mode : HighlightMode) (item : String) (positions : List Nat)
    (lead : String) : String :=
  ((Pattern.ofRuns mode lead item (matchedRuns item positions)).map Pattern.text).getD ""

end FuzzyPath
