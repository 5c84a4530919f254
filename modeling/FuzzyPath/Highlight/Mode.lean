/-
  FuzzyPath — how much of a match is highlighted.

  * `HighlightMode` lists the modes, `HighlightMode.ofName?` finds one by its
    name.
-/
import FuzzyPath.Error

namespace FuzzyPath

/-- What a highlight pattern shows of a match. -/
inductive HighlightMode where
  /-- Nothing. -/
  | none
  /-- All from the first to the last matched character. -/
  | basic
  /-- Every run of matched characters on its own. -/
  | full
  deriving DecidableEq, Repr

namespace HighlightMode

def name : HighlightMode → String
  | none => "none"
  | basic => "basic"
  | full => "full"

/-- The mode of a name.  The empty name stands for no highlighting, and
    `detailed` is another name of `full`. -/
def ofName? : String → Option HighlightMode
  | "" | "none" => some none
  | "basic" => some basic
  | "full" | "detailed" => some full
  | _ => Option.none

theorem ofName?_name (mode : HighlightMode) : ofName? mode.name = some mode := by
  cases mode <;> rfl

/-- The mode of a name, or the reason why there is none. -/
def ofName (name : String) : Except MatchError HighlightMode :=
  match ofName? name with
  | some mode => .ok mode
  | Option.none => .error (.unknownMode .highlightMode name)

end HighlightMode

end FuzzyPath
