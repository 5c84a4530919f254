/-
  FuzzyPath — values that are read from JSON and written to it.

  * a `Codec` reads and writes the values of a type, and takes them from JSON
    values that have been read already;
  * `Codec.boolean`, `Codec.string`, the integer codecs, `Codec.list` and
    `Codec.named` are the codecs that records are made of;
  * `Codec.decode`, `Codec.encode` and `Codec.encodeIndented` work on whole
    texts.
-/
import FuzzyPath.Json.Printer
import FuzzyPath.Json.Value

namespace FuzzyPath

/-- How the values of a type are read and written. -/
structure Codec (α : Type) where
  read : JsonReader α
  ofValue : JsonValue → Except JsonError α
  print : α → Document

namespace Codec

variable {α β : Type}

/-- Another type that stands for the same values. -/
def map (codec : Codec α) (forth : α → β) (back : β → α) : Codec β where
  read := forth <$> codec.read
  ofValue v := forth <$> codec.ofValue v
  print value := codec.print (back value)

def boolean : Codec Bool where
  read := Json.readBoolean
  ofValue := JsonValue.asBoolean
  print value := .ofText (if value then "true" else "false")

def string : Codec String where
  read := Json.readString
  ofValue := JsonValue.asText
  print := .string

/-- The integers of a type. -/
def integer (type : Json.IntegerType) : Codec Int where
  read := Json.readInteger type
  ofValue := JsonValue.asInteger type
  print value := .ofText value.repr

def int32 : Codec Int32 :=
  (integer ⟨"i32", -2147483648, 2147483647⟩).map Int32.ofInt Int32.toInt

def int64 : Codec Int64 :=
  (integer ⟨"i64", -9223372036854775808, 9223372036854775807⟩).map Int64.ofInt Int64.toInt

def uint32 : Codec UInt32 :=
  (integer ⟨"u32", 0, 4294967295⟩).map (fun value => .ofNat value.toNat)
    fun value => (value.toNat : Int)

/-- Counts. -/
def count : Codec UInt64 :=
  (integer ⟨"usize", 0, 18446744073709551615⟩).map (fun value => .ofNat value.toNat)
    fun value => (value.toNat : Int)

def list (codec : Codec α) : Codec (List α) where
  read := Json.readList codec.read
  ofValue v := do (← v.asList).mapM codec.ofValue
  print values := .list (values.map codec.print)

/-- Values that have names; `names` are all the names that are understood. -/
def named (names : List String) (ofName? : String → Option α) (name : α → String) : Codec α where
  read := Json.readName names ofName?
  ofValue := JsonValue.asName names ofName?
  print value := .string (name value)

/-- The value of a whole text. -/
def decode (codec : Codec α) (input : List UInt8) : Except JsonFailure α :=
  Json.readDocument codec.read input

/-- A value on one line. -/
def encode (codec : Codec α) (value : α) : String := (codec.print value).compact

/-- A value on several lines. -/
def encodeIndented (codec : Codec α) (value : α) : String := (codec.print value).indented

end Codec

end FuzzyPath
