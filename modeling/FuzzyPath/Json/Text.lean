/-
  FuzzyPath — JSON strings.

  * `writtenText` is how a text is written: in double quotes, with escapes for
    quotes, backslashes and control characters only;
  * `readText` reads a string and `skipText` passes over one; both begin after
    its first quote.  All escapes are understood, and the bytes between them
    have to be UTF-8.
-/
import FuzzyPath.Json.Error
import FuzzyPath.Text.Units

namespace FuzzyPath

namespace Json

/-! ## Writing -/

/-- A control character as an escape of four hexadecimal digits. -/
def controlEscape (c : Char) : List Char :=
  ['\\', 'u', '0', '0', Nat.digitChar (c.toNat / 16), Nat.digitChar (c.toNat % 16)]

/-- How a character is written within a string. -/
def writtenChar (c : Char) : List Char :=
  match c with
  | '"' => ['\\', '"']
  | '\\' => ['\\', '\\']
  | '\x08' => ['\\', 'b']
  | '\t' => ['\\', 't']
  | '\n' => ['\\', 'n']
  | '\x0c' => ['\\', 'f']
  | '\r' => ['\\', 'r']
  | c => if c.val < 0x20 then controlEscape c else [c]

/-- How a text is written. -/
def writtenText (text : String) : String :=
  "\"" ++ String.ofList (text.toList.flatMap writtenChar) ++ "\""

/-! ## Escapes -/

/-- The value of a hexadecimal digit. -/
def hexValue? (b : UInt8) : Option Nat :=
  if 0x30 ≤ b ∧ b ≤ 0x39 then some (b - 0x30).toNat
  else if 0x41 ≤ b ∧ b ≤ 0x46 then some (b - 0x41 + 10).toNat
  else if 0x61 ≤ b ∧ b ≤ 0x66 then some (b - 0x61 + 10).toNat
  else none

/-- The value of four hexadecimal digits. -/
def hexValue4? (a b c d : UInt8) : Option Nat := do
  return ((← hexValue? a) * 16 + (← hexValue? b)) * 256 + (← hexValue? c) * 16 + (← hexValue? d)

/-- The byte that an escape of one character stands for. -/
def shortEscape? (b : UInt8) : Option UInt8 :=
  if b == 0x22 || b == 0x5c || b == 0x2f then some b
  else if b == 0x62 then some 0x08
  else if b == 0x66 then some 0x0c
  else if b == 0x6e then some 0x0a
  else if b == 0x72 then some 0x0d
  else if b == 0x74 then some 0x09
  else none

/-- The code point of a high and a low surrogate. -/
def surrogatePair (high low : Nat) : Nat := (high - 0xD800) * 0x400 + (low - 0xDC00) + 0x10000

/-- The bytes of a code point, put in front of the bytes read so far, which
    stand last first. -/
def pushCodePoint (codePoint : Nat) (done : List UInt8) : List UInt8 :=
  (String.utf8EncodeChar (Char.ofNat codePoint)).reverse ++ done

/-! ## Reading -/

/-- The text of some bytes, last first, after which `rest` is left. -/
def textOfBytes (done rest : List UInt8) : Except JsonFault (String × List UInt8) :=
  match String.fromUTF8? ⟨done.reverse.toArray⟩ with
  | some text => .ok (text, rest)
  | none => .error ⟨.invalidCodePoint, rest⟩

/-- The rest of a string, of which the bytes `done` have been read, last
    first. -/
def readTextFrom (done : List UInt8) : List UInt8 → Except JsonFault (String × List UInt8)
  | [] => .error ⟨.endOfString, []⟩
  | b :: rest =>
    if b == 0x22 then textOfBytes done rest
    else if b < 0x20 then .error ⟨.controlCharacter, rest⟩
    else if b == 0x5c then
      match rest with
      | [] => .error ⟨.endOfString, []⟩
      | e :: rest =>
        if e == 0x75 then
          match rest with
          | h1 :: h2 :: h3 :: h4 :: rest =>
            match hexValue4? h1 h2 h3 h4 with
            | none => .error ⟨.invalidEscape, rest⟩
            | some n =>
              if 0xDC00 ≤ n ∧ n ≤ 0xDFFF then .error ⟨.loneSurrogate, rest⟩
              else if 0xD800 ≤ n ∧ n ≤ 0xDBFF then
                match rest with
                | [] => .error ⟨.endOfString, []⟩
                | slash :: rest =>
                  if slash != 0x5c then .error ⟨.endOfHexEscape, rest⟩
                  else
                    match rest with
                    | [] => .error ⟨.endOfString, []⟩
                    | mark :: rest =>
                      if mark != 0x75 then .error ⟨.endOfHexEscape, rest⟩
                      else
                        match rest with
                        | l1 :: l2 :: l3 :: l4 :: rest =>
                          match hexValue4? l1 l2 l3 l4 with
                          | none => .error ⟨.invalidEscape, rest⟩
                          | some low =>
                            if low < 0xDC00 ∨ 0xDFFF < low then .error ⟨.loneSurrogate, rest⟩
                            else readTextFrom (pushCodePoint (surrogatePair n low) done) rest
                        | _ => .error ⟨.endOfString, []⟩
              else readTextFrom (pushCodePoint n done) rest
          | _ => .error ⟨.endOfString, []⟩
        else
          match shortEscape? e with
          | some byte => readTextFrom (byte :: done) rest
          | none => .error ⟨.invalidEscape, rest⟩
    else readTextFrom (b :: done) rest

/-- The text of a string; the input begins after its first quote. -/
def readText (input : List UInt8) : Except JsonFault (String × List UInt8) := readTextFrom [] input

/-- Passes over a string, whatever its bytes and code points are; the input
    begins after its first quote. -/
def skipText : List UInt8 → Except JsonFault (List UInt8)
  | [] => .error ⟨.endOfString, []⟩
  | b :: rest =>
    if b == 0x22 then .ok rest
    else if b < 0x20 then .error ⟨.controlCharacter, b :: rest⟩
    else if b == 0x5c then
      match rest with
      | [] => .error ⟨.endOfString, []⟩
      | e :: rest =>
        if e == 0x75 then
          match rest with
          | h1 :: h2 :: h3 :: h4 :: rest =>
            match hexValue4? h1 h2 h3 h4 with
            | none => .error ⟨.invalidEscape, rest⟩
            | some _ => skipText rest
          | _ => .error ⟨.endOfString, []⟩
        else
          match shortEscape? e with
          | some _ => skipText rest
          | none => .error ⟨.invalidEscape, rest⟩
    else skipText rest

end Json

end FuzzyPath
