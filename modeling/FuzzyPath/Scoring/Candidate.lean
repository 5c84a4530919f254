/-
  FuzzyPath — candidate lines, and the file open in the editor.

  * a `Candidate` is a line with its match key and the style of its path;
    `components` are the components of the key;
  * an `EditorContext` is what the caller tells about the current file and
    about the paths.
-/
import FuzzyPath.Path.Components
import FuzzyPath.Query.MatchMode

namespace FuzzyPath

/-- What is known about the caller's side. -/
structure EditorContext where
  /-- The path of the file open in the editor, if any. -/
  currentFile : Option String
  /-- Whether the current file may be a result. -/
  matchCurrent : Bool
  style : PathStyle
  deriving DecidableEq, Repr

/-- A line that may match. -/
structure Candidate where
  /-- The place of the line in the caller's list. -/
  index : Nat
  text : String
  /-- The part of the text that is matched. -/
  keySpan : Span
  style : PathStyle
  deriving DecidableEq, Repr

namespace Candidate

/-- The candidate of a line. -/
def ofLine (index : Nat) (text : String) (mode : MatchMode) (style : PathStyle) : Candidate where
  index := index
  text := text
  keySpan := mode.key text
  style := style

/-- The text that is matched. -/
def key (c : Candidate) : String := c.keySpan.slice c.text

/-- The components of the key, as spans of the key. -/
def components (c : Candidate) : List Span := Path.components c.style c.key

/-- The names of the directories of the key. -/
def directoryNames (c : Candidate) : List String :=
  c.components.dropLast.map (·.slice c.key)

/-- The file name of the key; empty if it has no component. -/
def filename (c : Candidate) : String :=
  (c.components.getLast?.map (·.slice c.key)).getD ""

end Candidate

end FuzzyPath
