/-
  FuzzyPath — writing JSON values.

  * a `Document` is a value ready to be written, on one line or on several;
  * `Document.list` and `Document.object` put documents together;
  * `Document.compact` and `Document.indented` give the text.
-/
import FuzzyPath.Json.Text

namespace FuzzyPath

/-- How values are laid out. -/
inductive Layout where
  /-- On one line, without spaces. -/
  | compact
  /-- One element or member on a line, indented by two spaces. -/
  | indented
  deriving DecidableEq, Repr

/-- What separates the parts of a value at a given depth. -/
def Layout.lineBreak : Layout → Nat → String
  | compact, _ => ""
  | indented, depth => "\n" ++ String.ofList (List.replicate (2 * depth) ' ')

/-- What stands between a key and its value. -/
def Layout.colon : Layout → String
  | compact => ":"
  | indented => ": "

/-- A value ready to be written: its text under a layout, at a depth. -/
abbrev Document := Layout → Nat → String

namespace Document

/-- A value that is written the same everywhere. -/
def ofText (text : String) : Document := fun _ _ => text

/-- A string. -/
def string (text : String) : Document := ofText (Json.writtenText text)

/-- Parts between two brackets. -/
def enclosed (opening closing : String) (parts : List Document) : Document := fun layout depth =>
  match parts with
  | [] => opening ++ closing
  | parts =>
    let inner := layout.lineBreak (depth + 1)
    opening ++ inner ++
      ("," ++ inner).intercalate (parts.map fun part => part layout (depth + 1)) ++
      layout.lineBreak depth ++ closing

/-- A list of values. -/
def list (values : List Document) : Document := enclosed "[" "]" values

/-- A member of an object. -/
def member (name : String) (value : Document) : Document := fun layout depth =>
  Json.writtenText name ++ layout.colon ++ value layout depth

/-- An object with the given members. -/
def object (members : List (String × Document)) : Document :=
  enclosed "\x7b" "\x7d" (members.map fun (name, value) => member name value)

/-- The text on one line. -/
def compact (d : Document) : String := d .compact 0

/-- The text on several lines. -/
def indented (d : Document) : String := d .indented 0

end Document

end FuzzyPath
