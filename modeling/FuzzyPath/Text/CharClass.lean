/-
  FuzzyPath — character classes and the boundaries between them.

  Matches read best where a word begins.  Where that is depends only on the
  class of a character and of the one before it.

  * `classify` gives the class of a character, `boundary` the kind of boundary
    that a character sits on.
-/
import FuzzyPath.Text.Mode
import FuzzyPath.Path.Style

namespace FuzzyPath

/-- The class of a character. -/
inductive CharClass where
  | upper
  /-- Also letters that have no case. -/
  | lower
  | digit
  /-- A path separator, in matching that knows about paths. -/
  | separator
  /-- Everything else. -/
  | punct
  deriving DecidableEq, Repr

/-- Whether characters of this class make up words. -/
def CharClass.isWord : CharClass → Bool
  | upper | lower | digit => true
  | separator | punct => false

/-- The class of a character.  Without a path style, separators are ordinary
    punctuation. -/
def classify (mode : TextMode) (style : Option PathStyle) (c : Char) : CharClass :=
  if style.any (·.isSeparator c) then .separator
  else if mode.isUpper c then .upper
  else if mode.isNumber c then .digit
  else if mode.isLower c || mode.isAlphanumeric c then .lower
  else .punct

/-- The kinds of boundary, from the weakest to the strongest. -/
inductive Boundary where
  | none
  /-- An uppercase letter after a lowercase one, or a change between letters
      and digits. -/
  | camelHump
  /-- After punctuation. -/
  | word
  /-- At the very start, or after a path separator. -/
  | component
  deriving DecidableEq, Repr

/-- The boundary on which a character of class `cur` sits after one of class
    `prev`. -/
def boundary (prev : Option CharClass) (cur : CharClass) : Boundary :=
  if !cur.isWord then .none
  else match prev, cur with
    | .none, _ | some .separator, _ => .component
    | some .punct, _ => .word
    | some .lower, .upper => .camelHump
    | some .lower, .digit | some .upper, .digit => .camelHump
    | some .digit, .upper | some .digit, .lower => .camelHump
    | _, _ => .none

end FuzzyPath
