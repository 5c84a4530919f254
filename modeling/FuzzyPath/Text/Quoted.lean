/-
  FuzzyPath — texts quoted within messages.

  A quoted text stands in double quotes and on one line.  Control characters,
  characters without a printed form, letters that are not seen and marks that
  would attach to the character before them are shown by their code points.

  * `quotedChar` is the quoted form of a character, `quoted` that of a text.
-/
import FuzzyPath.Text.Printable

namespace FuzzyPath

/-- A code point in hexadecimal digits, between `\u` and its braces. -/
def codePointText (c : Nat) : String :=
  "\\u\x7b" ++ String.ofList (Nat.toDigits 16 c) ++ "\x7d"

/-- Whether a quoted text shows the character by its code point. -/
def isHidden (c : Char) : Bool :=
  if c.val < 0x80 then c.val < 0x20 || c.val == 0x7f
  else
    CodePoints.mem combiningRuns c.toNat || CodePoints.mem unprintableRuns c.toNat ||
      CodePoints.mem fillerRuns c.toNat

/-- The quoted form of a character. -/
def quotedChar (c : Char) : String :=
  match c with
  | '\x00' => "\\0"
  | '\t' => "\\t"
  | '\n' => "\\n"
  | '\r' => "\\r"
  | '\\' => "\\\\"
  | '"' => "\\\""
  | c => if isHidden c then codePointText c.toNat else String.singleton c

/-- The quoted form of a text. -/
def quoted (text : String) : String :=
  "\"" ++ String.join (text.toList.map quotedChar) ++ "\""

end FuzzyPath
