/-
  FuzzyPath — which part of a line is matched.

  * `MatchMode` lists the modes, `ofName?` finds one by its name;
  * `MatchMode.key` is the part of a line that queries are matched against:
    the line, or what stands before one of its tabs;
  * `KeyKind` says what is known about the key: plain text, a path, or a path
    of which only the file name counts.
-/
import FuzzyPath.Error
import FuzzyPath.Text.Span

namespace FuzzyPath

/-- The modes of matching a line. -/
inductive MatchMode where
  /-- The whole line. -/
  | fullLine
  /-- The last component of a path. -/
  | filenameOnly
  /-- The text before the first tab. -/
  | firstNonTab
  /-- The text before the last tab. -/
  | untilLastTab
  /-- Known by name, so that callers get a clear answer, and not supported. -/
  | regex
  deriving DecidableEq, Repr

/-- The byte offset of the first tab of a text that begins at `offset`. -/
def firstTab? (offset : Nat) : List Char → Option Nat
  | [] => none
  | c :: cs => if c = '\t' then some offset else firstTab? (offset + c.utf8Size) cs

/-- The byte offset of the last tab of a text that begins at `offset`; `found`
    is the last tab before it. -/
def lastTab? (found : Option Nat) (offset : Nat) : List Char → Option Nat
  | [] => found
  | c :: cs => lastTab? (if c = '\t' then some offset else found) (offset + c.utf8Size) cs

namespace MatchMode

def name : MatchMode → String
  | fullLine => "full-line"
  | filenameOnly => "filename-only"
  | firstNonTab => "first-non-tab"
  | untilLastTab => "until-last-tab"
  | regex => "regex"

/-- The mode of a name; the empty name stands for the whole line. -/
def ofName? : String → Option MatchMode
  | "" | "full-line" => some fullLine
  | "filename-only" => some filenameOnly
  | "first-non-tab" => some firstNonTab
  | "until-last-tab" => some untilLastTab
  | "regex" => some regex
  | _ => none

theorem ofName?_name (mode : MatchMode) : ofName? mode.name = some mode := by
  cases mode <;> rfl

/-- The mode of a name, or the reason why there is none. -/
def ofName (name : String) : Except MatchError MatchMode :=
  match ofName? name with
  | some mode => .ok mode
  | none => .error (.unknownMode .matchMode name)

/-- The part of `line` that is matched.  It begins where the line begins; a
    line without a tab is its own key. -/
def key (mode : MatchMode) (line : String) : Span :=
  match mode with
  | firstNonTab => ⟨0, (firstTab? 0 line.toList).getD line.utf8ByteSize⟩
  | untilLastTab => ⟨0, (lastTab? none 0 line.toList).getD line.utf8ByteSize⟩
  | fullLine | filenameOnly | regex => ⟨0, line.utf8ByteSize⟩

end MatchMode

/-- What a match key is taken for. -/
inductive KeyKind where
  /-- Text without components. -/
  | plain
  /-- A path, all of which is matched. -/
  | path
  /-- A path of which only the file name is matched. -/
  | filename
  deriving DecidableEq, Repr

/-- Whether separators have a meaning. -/
def KeyKind.isPathAware : KeyKind → Bool
  | plain => false
  | path | filename => true

end FuzzyPath
