/-
  FuzzyPath — the units of a text.

  Matching compares units, not strings.  A unit remembers where in the text it
  stands, so a matched place is always reported as a byte offset, whichever
  mode produced it.

  * `utf8` is the UTF-8 form of a text as a list of bytes;
  * `TextMode.decode` splits a text into units;
  * `utf8_append` says that the bytes of two texts stand one after the other.
-/
import FuzzyPath.Text.Mode

namespace FuzzyPath

/-- The UTF-8 bytes of a list of characters. -/
def utf8Chars (cs : List Char) : List UInt8 := cs.flatMap String.utf8EncodeChar

/-- The UTF-8 bytes of a text. -/
def utf8 (text : String) : List UInt8 := utf8Chars text.toList

theorem utf8Chars_append (cs ds : List Char) :
    utf8Chars (cs ++ ds) = utf8Chars cs ++ utf8Chars ds := by
  simp [utf8Chars]

theorem utf8_append (s t : String) : utf8 (s ++ t) = utf8 s ++ utf8 t := by
  simp [utf8, utf8Chars_append]

/-- One unit of a text. -/
structure TextUnit where
  /-- The unit as written. -/
  ch : Char
  /-- The unit with its case folded. -/
  folded : Char
  /-- The byte offset of the unit's first byte. -/
  offset : Nat
  /-- The number of bytes the unit takes. -/
  len : Nat
  deriving DecidableEq, Repr

namespace TextMode

/-- The unit of a character that stands at `offset`. -/
def unitAt (mode : TextMode) (offset len : Nat) (c : Char) : TextUnit where
  ch := c
  folded := mode.fold c
  offset := offset
  len := len

/-- The units of a list of bytes, the first of which stands at `offset`. -/
def decodeBytes (offset : Nat) (bytes : List UInt8) : List TextUnit :=
  bytes.mapIdx fun i b => unitAt .bytes (offset + i) 1 (Char.ofNat b.toNat)

/-- The units of a list of characters, the first of which stands at `offset`;
    `before` are the units before them, last first. -/
def decodeChars (offset : Nat) (before : List TextUnit) : List Char → List TextUnit
  | [] => before.reverse
  | c :: cs => decodeChars (offset + c.utf8Size) (unitAt .unicode offset c.utf8Size c :: before) cs

/-- The units of `text`, which itself begins at the byte offset `base` of a
    larger text. -/
def decode (mode : TextMode) (text : String) (base : Nat) : List TextUnit :=
  match mode with
  | bytes => decodeBytes base (utf8 text)
  | unicode => decodeChars base [] text.toList

end TextMode

end FuzzyPath
