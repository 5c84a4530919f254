/-
  FuzzyPath — reading JSON numbers.

  An integer of 64 bits is read exactly.  All else is read as a floating-point
  number: up to 64 bits of leading digits, scaled by a power of ten in one
  step, so that the last bit may be off.

  * `readNumber` reads a number, `skipNumber` passes over one;
  * `JsonNumber` is the result.
-/
import FuzzyPath.Json.Error

namespace FuzzyPath

/-- What a number is read as. -/
inductive JsonNumber where
  | integer (value : Int)
  | float (bits : UInt64)
  deriving DecidableEq, Repr

def JsonNumber.found : JsonNumber → Found
  | integer value => .integer value
  | float bits => .float bits

namespace Json

/-- Whether a byte is a decimal digit. -/
def isDigit (b : UInt8) : Bool := 0x30 ≤ b && b ≤ 0x39

/-- Whether a byte is the mark of an exponent. -/
def isExponentMark (b : UInt8) : Bool := b == 0x65 || b == 0x45

def digitValue (b : UInt8) : Nat := (b - 0x30).toNat

/-- The largest significand. -/
def maxSignificand : Nat := 18446744073709551615

/-- Adds digits to a significand as long as it fits; the second result is the
    number of digits added. -/
def absorb (significand : Nat) (count : Nat) : List UInt8 → Nat × Nat
  | [] => (significand, count)
  | b :: digits =>
    let next := significand * 10 + digitValue b
    if maxSignificand < next then (significand, count) else absorb next (count + 1) digits

/-- The value of some digits. -/
def digitsValue (digits : List UInt8) : Nat :=
  digits.foldl (fun value b => value * 10 + digitValue b) 0

/-- A power of ten that a floating-point number can hold. -/
def powerOfTen (e : Nat) : Float := Float.ofScientific 1 false e

/-- `f · 10 ^ e`, in steps that floating-point numbers can take; `none` if it is
    too large. -/
def scaleFloat? (f : Float) (e : Int) : Option Float :=
  if e.natAbs ≤ 308 then
    if 0 ≤ e then
      let scaled := f * powerOfTen e.toNat
      if scaled.isInf then none else some scaled
    else some (f / powerOfTen e.natAbs)
  else if f == 0.0 then some f
  else if 0 ≤ e then none
  else scaleFloat? (f / powerOfTen 308) (e + 308)
termination_by (-e).toNat

/-- A floating-point number with its sign. -/
def signed (negative : Bool) (f : Float) : JsonNumber :=
  .float (if negative then (-f).toBits else f.toBits)

/-- A floating-point number from its parts, after which `rest` is left. -/
def floatNumber (negative : Bool) (significand : Nat) (e : Int) (rest : List UInt8) :
    Except JsonFault (JsonNumber × List UInt8) :=
  match scaleFloat? significand.toUInt64.toFloat e with
  | some f => .ok (signed negative f, rest)
  | none => .error ⟨.numberOutOfRange, rest⟩

/-- The largest size of an exponent. -/
def maxExponent : Nat := 2147483647

/-- What is left after the digit with which an exponent of size `size` gets too
    large, if there is such a digit. -/
def exponentOverflow? (size : Nat) : List UInt8 → Option (List UInt8)
  | [] => none
  | b :: rest =>
    let next := size * 10 + digitValue b
    if !isDigit b then none
    else if maxExponent < next then some rest
    else exponentOverflow? next rest

/-- The rest of a number from the sign of the exponent on. -/
def readExponent (negative : Bool) (significand : Nat) (e : Int) (input : List UInt8) :
    Except JsonFault (JsonNumber × List UInt8) :=
  let (down, input) := match input with
    | b :: rest =>
      if b == 0x2d then (true, rest) else if b == 0x2b then (false, rest) else (false, input)
    | [] => (false, [])
  match input with
  | [] => .error ⟨.endOfValue, []⟩
  | b :: after =>
    if !isDigit b then .error ⟨.invalidNumber, after⟩
    else
      let size := digitsValue (input.takeWhile isDigit)
      let rest := input.dropWhile isDigit
      match exponentOverflow? 0 input with
      | some left =>
        if significand ≠ 0 ∧ !down then .error ⟨.numberOutOfRange, left⟩
        else .ok (signed negative 0.0, rest)
      | none => floatNumber negative significand (if down then e - size else e + size) rest

/-- The rest of a number after the point. -/
def readFraction (negative : Bool) (significand : Nat) (e : Int) (input : List UInt8) :
    Except JsonFault (JsonNumber × List UInt8) :=
  let digits := input.takeWhile isDigit
  let rest := input.dropWhile isDigit
  if digits.isEmpty then
    .error ⟨if rest.isEmpty then .endOfValue else .invalidNumber, rest.drop 1⟩
  else
    let (significand, count) := absorb significand 0 digits
    match rest with
    | b :: after =>
      if isExponentMark b then readExponent negative significand (e - count) after
      else floatNumber negative significand (e - count) rest
    | [] => floatNumber negative significand (e - count) []

/-- An integer, if it has 64 bits, after which `rest` is left; `dropped` digits
    did not fit in the significand.  Minus zero is no integer. -/
def wholeNumber (negative : Bool) (significand dropped : Nat) (rest : List UInt8) :
    Except JsonFault (JsonNumber × List UInt8) :=
  if 0 < dropped then floatNumber negative significand dropped rest
  else if !negative then .ok (.integer significand, rest)
  else if significand = 0 ∨ 9223372036854775808 < significand then
    floatNumber true significand 0 rest
  else .ok (.integer (-significand), rest)

/-- A number without its sign; the input begins with its first digit. -/
def readUnsigned (negative : Bool) (input : List UInt8) :
    Except JsonFault (JsonNumber × List UInt8) :=
  let digits := input.takeWhile isDigit
  let rest := input.dropWhile isDigit
  match digits with
  | [] => .error ⟨if rest.isEmpty then .endOfValue else .invalidNumber, rest.drop 1⟩
  | first :: more =>
    if first == 0x30 ∧ !more.isEmpty then .error ⟨.invalidNumber, input.drop 2⟩
    else
      let (significand, count) := absorb 0 0 digits
      let dropped := digits.length - count
      match rest with
      | b :: after =>
        if b == 0x2e then readFraction negative significand dropped after
        else if isExponentMark b then readExponent negative significand dropped after
        else wholeNumber negative significand dropped rest
      | [] => wholeNumber negative significand dropped []

/-- A number.  The input begins with a minus sign or a digit. -/
def readNumber : List UInt8 → Except JsonFault (JsonNumber × List UInt8)
  | [] => .error ⟨.endOfValue, []⟩
  | b :: rest => if b == 0x2d then readUnsigned true rest else readUnsigned false (b :: rest)

/-! ## Passing over numbers -/

/-- Passes over at least one digit. -/
def skipDigits : List UInt8 → Except JsonFault (List UInt8)
  | [] => .error ⟨.invalidNumber, []⟩
  | b :: rest =>
    if isDigit b then .ok (rest.dropWhile isDigit) else .error ⟨.invalidNumber, rest⟩

/-- Passes over an exponent, if there is one. -/
def skipExponent : List UInt8 → Except JsonFault (List UInt8)
  | [] => .ok []
  | b :: rest =>
    if isExponentMark b then
      match rest with
      | s :: after => if s == 0x2b || s == 0x2d then skipDigits after else skipDigits rest
      | [] => .error ⟨.invalidNumber, []⟩
    else .ok (b :: rest)

/-- Passes over a number without its sign. -/
def skipUnsigned : List UInt8 → Except JsonFault (List UInt8)
  | [] => .error ⟨.invalidNumber, []⟩
  | b :: rest =>
    if !isDigit b then .error ⟨.invalidNumber, rest⟩
    else if b == 0x30 ∧ (rest.head?.any isDigit) then .error ⟨.invalidNumber, rest.drop 1⟩
    else
      match rest.dropWhile isDigit with
      | p :: after =>
        if p == 0x2e then do skipExponent (← skipDigits after)
        else skipExponent (p :: after)
      | [] => .ok []

/-- Passes over a number, whatever its value is. -/
def skipNumber : List UInt8 → Except JsonFault (List UInt8)
  | [] => .error ⟨.invalidNumber, []⟩
  | b :: rest => if b == 0x2d then skipUnsigned rest else skipUnsigned (b :: rest)

end Json

end FuzzyPath
