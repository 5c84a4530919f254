/-
  FuzzyPath — why a JSON text cannot be read.

  * `JsonError` lists the causes: a text that is no JSON, or a value that is
    not of the form that is read; `JsonError.message` words them;
  * `Found` describes a value that stands where another one was expected;
  * a `JsonFault` is an error while a text is read, with what was left of the
    text; `JsonFault.within` finds its place in the text (`TextPlace`);
  * a `JsonFailure` is an error with its place, if it has one.
-/
import FuzzyPath.Decimal.Shortest
import FuzzyPath.Text.Quoted

namespace FuzzyPath

/-- A value where another one was expected. -/
inductive Found where
  | null
  | boolean (value : Bool)
  | integer (value : Int)
  /-- A number that is no integer or none of 64 bits; given by its bits. -/
  | float (bits : UInt64)
  | text (value : String)
  | sequence
  | map
  deriving DecidableEq, Repr

def Found.description : Found → String
  | null => "null"
  | boolean value => s!"boolean `{value}`"
  | integer value => s!"integer `{value}`"
  | float bits => s!"floating point `{floatText bits}`"
  | text value => s!"string {quoted value}"
  | sequence => "sequence"
  | map => "map"

/-- Names to choose from. -/
def oneOf (names : List String) : String :=
  let marked := names.map fun name => s!"`{name}`"
  match marked with
  | [a] => a
  | [a, b] => a ++ " or " ++ b
  | _ => "one of " ++ ", ".intercalate marked

/-- Why a text cannot be read. -/
inductive JsonError where
  -- The text ends too early.
  | endOfValue
  | endOfString
  | endOfList
  | endOfObject
  -- The text is no JSON.
  | expectedValue
  | expectedIdent
  | expectedColon
  | expectedListCommaOrEnd
  | expectedObjectCommaOrEnd
  | keyMustBeString
  | trailingComma
  | trailingCharacters
  | invalidNumber
  | numberOutOfRange
  | invalidEscape
  | endOfHexEscape
  | loneSurrogate
  | invalidCodePoint
  | controlCharacter
  -- The value has another form than the one that is read.
  | invalidType (found : Found) (expected : String)
  | invalidValue (found : Found) (expected : String)
  | invalidLength (length : Nat) (expected : String)
  | unknownVariant (name : String) (names : List String)
  | unknownField (name : String) (names : List String)
  | duplicateField (name : String)
  | missingField (name : String)
  deriving DecidableEq, Repr

def JsonError.message : JsonError → String
  | endOfValue => "EOF while parsing a value"
  | endOfString => "EOF while parsing a string"
  | endOfList => "EOF while parsing a list"
  | endOfObject => "EOF while parsing an object"
  | expectedValue => "expected value"
  | expectedIdent => "expected ident"
  | expectedColon => "expected `:`"
  | expectedListCommaOrEnd => "expected `,` or `]`"
  | expectedObjectCommaOrEnd => "expected `,` or `\x7d`"
  | keyMustBeString => "key must be a string"
  | trailingComma => "trailing comma"
  | trailingCharacters => "trailing characters"
  | invalidNumber => "invalid number"
  | numberOutOfRange => "number out of range"
  | invalidEscape => "invalid escape"
  | endOfHexEscape => "unexpected end of hex escape"
  | loneSurrogate => "lone leading surrogate in hex escape"
  | invalidCodePoint => "invalid unicode code point"
  | controlCharacter => "control character (\\u0000-\\u001F) found while parsing a string"
  | invalidType found expected => s!"invalid type: {found.description}, expected {expected}"
  | invalidValue found expected => s!"invalid value: {found.description}, expected {expected}"
  | invalidLength length expected => s!"invalid length {length}, expected {expected}"
  | unknownVariant name names => s!"unknown variant `{name}`, expected {oneOf names}"
  | unknownField name names => s!"unknown field `{name}`, expected {oneOf names}"
  | duplicateField name => s!"duplicate field `{name}`"
  | missingField name => s!"missing field `{name}`"

/-! ## Places -/

/-- A place in a text: the number of its line, counted from one, and the number
    of bytes before it on the line. -/
structure TextPlace where
  line : Nat
  column : Nat
  deriving DecidableEq, Repr

/-- A line feed. -/
def lineFeed : UInt8 := 0x0a

/-- The place after some bytes. -/
def TextPlace.after (bytes : List UInt8) : TextPlace :=
  ⟨1 + bytes.count lineFeed, (bytes.reverse.takeWhile (· != lineFeed)).length⟩

/-- An error with its place in the text, if it is about a text. -/
structure JsonFailure where
  error : JsonError
  place : Option TextPlace
  deriving DecidableEq, Repr

def JsonFailure.message (failure : JsonFailure) : String :=
  match failure.place with
  | some place => s!"{failure.error.message} at line {place.line} column {place.column}"
  | none => failure.error.message

/-- An error while a text is read, and what is left of the text after the place
    of the error. -/
structure JsonFault where
  error : JsonError
  rest : List UInt8
  deriving DecidableEq, Repr

/-- The error with its place in the whole input. -/
def JsonFault.within (input : List UInt8) (fault : JsonFault) : JsonFailure :=
  ⟨fault.error, some (.after (input.take (input.length - fault.rest.length)))⟩

end FuzzyPath
