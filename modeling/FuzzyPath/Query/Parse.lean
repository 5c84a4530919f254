/-
  FuzzyPath — from a typed query to what is matched.

  A query is a text to be matched, followed by texts that a line must not
  contain.  They are set apart by a delimiter of one character; a delimiter of
  any other length sets nothing apart.

  * `segments` cuts a text at a character;
  * `Query.split` gives the text to be matched and the excluded texts;
  * `Query.parse` is the whole analysis; only the `regex` mode is refused.
-/
import FuzzyPath.Query.MatchMode
import FuzzyPath.Text.Units

namespace FuzzyPath

/-- The pieces of a text between the occurrences of `delim`.  `current` is the
    piece being read, last character first, and `found` the pieces before it,
    last piece first. -/
def segmentsFrom (delim : Char) (current : List Char) (found : List String) :
    List Char → List String
  | [] => (String.ofList current.reverse :: found).reverse
  | c :: cs =>
    if c = delim then segmentsFrom delim [] (String.ofList current.reverse :: found) cs
    else segmentsFrom delim (c :: current) found cs

/-- The pieces of `text` between the occurrences of `delim`: one more than
    there are occurrences. -/
def segments (delim : Char) (text : String) : List String :=
  segmentsFrom delim [] [] text.toList

/-- What the caller decides about a query. -/
structure QuerySettings where
  matchMode : MatchMode
  /-- Whether the lines are paths. -/
  isPath : Bool
  /-- Whether characters are compared instead of bytes. -/
  unicodeOn : Bool
  /-- Whether an uppercase letter in the query makes case count. -/
  smartCase : Bool
  /-- The character before each excluded text; empty for none. -/
  delimiter : String
  deriving DecidableEq, Repr

/-- A query, analysed. -/
structure Query where
  /-- The text to be matched, as typed. -/
  text : String
  /-- Texts that a line must not contain. -/
  excluded : List String
  matchMode : MatchMode
  keyKind : KeyKind
  textMode : TextMode
  caseSensitive : Bool
  /-- The units of `text`. -/
  units : List TextUnit
  deriving DecidableEq, Repr

namespace Query

/-- Whether there is nothing to be matched.  Exclusions apply all the same. -/
def isEmpty (q : Query) : Bool := q.units.isEmpty

def isPathAware (q : Query) : Bool := q.keyKind.isPathAware

/-- The text to be matched and the excluded texts of a typed query.  The first
    piece is to be matched even if it is empty; of the others the empty ones
    are dropped. -/
def split (raw : String) (delimiter : String) : String × List String :=
  match delimiter.toList with
  | [delim] =>
    match segments delim raw with
    | text :: rest => (text, rest.filter (· != ""))
    | [] => ("", [])
  | _ => (raw, [])

/-- What the key is taken for under given settings. -/
def keyKindOf (settings : QuerySettings) : Except MatchError KeyKind :=
  match settings.matchMode, settings.isPath with
  | .regex, _ => .error (.unsupportedMode MatchMode.regex.name)
  | .filenameOnly, _ => .ok .filename
  | _, true => .ok .path
  | _, false => .ok .plain

/-- The analysis of a typed query. -/
def parse (raw : String) (settings : QuerySettings) : Except MatchError Query := do
  let keyKind ← keyKindOf settings
  let (text, excluded) := split raw settings.delimiter
  let textMode := TextMode.ofSwitch settings.unicodeOn
  let units := textMode.decode text 0
  return {
    text, excluded, keyKind, textMode, units
    matchMode := settings.matchMode
    caseSensitive := settings.smartCase && units.any (textMode.isUpper ·.ch) }

end Query

end FuzzyPath
