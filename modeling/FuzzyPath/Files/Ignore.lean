/-
  FuzzyPath — rules that take files out of a listing.

  A rule file has one rule on a line.  A rule that holds a slash before its end
  is about paths from the directory of its file on, any other about names at
  any depth; a slash at the end restricts it to directories, and an exclamation
  mark at the start turns it round.

  * `IgnoreRule.parse?` reads a rule, `ignoreRules` all rules of a file;
  * `PlacedRules` are rules with the directory from which their paths start, and
    `PlacedRules.verdictOn` is what the last one says that is about a path.
-/
import FuzzyPath.Files.GlobNesting
import FuzzyPath.Files.TypedPath
import FuzzyPath.Text.Blank

namespace FuzzyPath

/-- A rule about paths. -/
structure IgnoreRule where
  glob : Glob
  /-- Whether the rule keeps what it is about. -/
  keeps : Bool
  /-- Whether the rule is about directories only. -/
  onlyDirectories : Bool
  deriving Repr

/-- What rules say about a path. -/
inductive Verdict where
  | ignored
  | kept
  deriving DecidableEq, Repr

namespace IgnoreRule

/-- Whether a rule is about a path, given from the directory of its file on. -/
def appliesTo (rule : IgnoreRule) (path : List UInt8) (isDirectory : Bool) : Bool :=
  (isDirectory || !rule.onlyDirectories) && rule.glob.accepts path

/-- A line without the white space at its end; a blank at the end that follows a
    backslash keeps all of it. -/
def trimLine (line : List Char) : List Char :=
  if [' ', '\\'].isPrefixOf line.reverse then line
  else (line.reverse.dropWhile isWhiteSpace).reverse

/-- A pattern without the slash at its end, and without a backslash before
    that. -/
def withoutEndSlash (text : List Char) : List Char :=
  let text := text.dropLast
  if text.getLast? = some '\\' then text.dropLast else text

/-- A pattern about names at any depth as one about paths. -/
def atAnyDepth (text : List Char) : List Char :=
  if text = ['*', '*'] then text else '*' :: '*' :: '/' :: text

/-- A pattern about all that is in a directory is not about the directory
    itself. -/
def withinDirectory (text : List Char) : List Char :=
  if ['*', '*', '/'].isPrefixOf text.reverse then text ++ ['/', '*'] else text

/-- The rule of a pattern after its marks; `anchored` if there was a slash at
    its start. -/
def ofPattern? (keeps anchored : Bool) (text : List Char) : Option IgnoreRule :=
  let onlyDirectories := text.getLast? == some '/'
  let text := if onlyDirectories then withoutEndSlash text else text
  let text := if anchored ∨ '/' ∈ text then text else atAnyDepth text
  (Glob.parse? (withinDirectory text)).map (⟨·, keeps, onlyDirectories⟩)

/-- The rule of a line without white space at its end. -/
def ofLine? : List Char → Option IgnoreRule
  | [] => none
  | '\\' :: '!' :: rest => ofPattern? false false ('!' :: rest)
  | '\\' :: '#' :: rest => ofPattern? false false ('#' :: rest)
  | '!' :: '/' :: rest => ofPattern? true true rest
  | '!' :: rest => ofPattern? true false rest
  | '/' :: rest => ofPattern? false true rest
  | text => ofPattern? false false text

/-- The rule of a line; `none` for blank lines, comments and malformed
    patterns. -/
def parse? (line : List Char) : Option IgnoreRule :=
  if line.head? = some '#' then none else ofLine? (trimLine line)

end IgnoreRule

/-! ## Rule files -/

/-- The bytes between line feeds; `current` are those since the last one, last
    first. -/
def bytePieces (current : List UInt8) : List UInt8 → List (List UInt8)
  | [] => [current.reverse]
  | b :: rest =>
    if b = 0x0a then current.reverse :: bytePieces [] rest else bytePieces (b :: current) rest

/-- Bytes without the carriage return at their end. -/
def withoutEndReturn (line : List UInt8) : List UInt8 :=
  if line.getLast? = some 0x0d then line.dropLast else line

/-- The lines of a rule file up to the first one that is no UTF-8, without a
    byte order mark at the start. -/
def ruleLines (content : List UInt8) : List (List Char) :=
  let pieces := bytePieces [] content
  let ended := pieces.dropLast.map withoutEndReturn ++ pieces.getLast?.toList
  let texts := ended.map fun line => String.fromUTF8? ⟨line.toArray⟩
  match (texts.takeWhile Option.isSome).filterMap (·.map String.toList) with
  | [] => []
  | line :: lines => line.dropWhile (· = '\ufeff') :: lines

/-- The rules of a file, in order.  A pattern that is nested too deeply voids all
    of them. -/
def ignoreRules (content : List UInt8) : List IgnoreRule :=
  let rules := (ruleLines content).filterMap IgnoreRule.parse?
  if rules.all fun rule => rule.glob.nesting ≤ maxGlobNesting then rules else []

/-! ## Verdicts -/

/-- What the last of some rules says that is about a path. -/
def verdict (rules : List IgnoreRule) (path : List UInt8) (isDirectory : Bool) : Option Verdict :=
  (rules.reverse.find? (·.appliesTo path isDirectory)).map fun rule =>
    if rule.keeps then .kept else .ignored

/-- Rules with the path of the directory from which their paths start. -/
structure PlacedRules where
  directory : String
  rules : List IgnoreRule
  deriving Repr

/-- What rules say about a path as typed. -/
def PlacedRules.verdictOn (placed : PlacedRules) (path : String) (isDirectory : Bool) :
    Option Verdict :=
  if placed.rules.isEmpty then none
  else verdict placed.rules (utf8 (pathWithin placed.directory path)) isDirectory

end FuzzyPath
