/-
  FuzzyPath — JSON values of any form.

  * a `JsonValue` is a value that has been read without a form in mind; the
    members of an object stand in the order of their keys, each key once;
  * `JsonValue.read` reads one;
  * `JsonValue.asBoolean`, `asText`, `asInteger`, `asName` and `asList` take
    values of one form each, and describe any other in the error.
-/
import FuzzyPath.Json.Reader

namespace FuzzyPath

/-- A JSON value. -/
inductive JsonValue where
  | null
  | boolean (value : Bool)
  | number (value : JsonNumber)
  | text (value : String)
  | list (values : List JsonValue)
  | object (members : List (String × JsonValue))

namespace JsonValue

/-- What a value is when another one was expected. -/
def found : JsonValue → Found
  | null => .null
  | boolean value => .boolean value
  | number value => value.found
  | text value => .text value
  | list _ => .sequence
  | object _ => .map

/-! ## Reading -/

/-- The members with one more, which takes the place of another one with its
    key. -/
def insertMember (key : String) (value : JsonValue) :
    List (String × JsonValue) → List (String × JsonValue)
  | [] => [(key, value)]
  | (k, v) :: members =>
    match compare key k with
    | .lt => (key, value) :: (k, v) :: members
    | .eq => (key, value) :: members
    | .gt => (k, v) :: insertMember key value members

/-- The members of an object from the next one on; `done` are those before.
    There are fewer of them than `fuel`. -/
def readMembers (value : JsonReader JsonValue) (first : Bool)
    (done : List (String × JsonValue)) : (fuel : Nat) → JsonReader (List (String × JsonValue))
  | 0 => Json.fail .endOfObject
  | fuel + 1 => do
    match ← Json.nextKey first with
    | none => return done
    | some key =>
      Json.readColon
      let v ← value
      readMembers value false (insertMember key v done) fuel

/-- A value of at most `fuel` bytes. -/
def readWithin : (fuel : Nat) → JsonReader JsonValue
  | 0 => Json.fail .endOfValue
  | fuel + 1 => fun input =>
    match Json.skipBlank input with
    | [] => .error ⟨.endOfValue, []⟩
    | b :: rest =>
      if b == 0x5b then
        (list <$> Json.readElements (readWithin fuel) [] (fuel + 1) : JsonReader JsonValue) rest
      else if b == 0x7b then
        (object <$> readMembers (readWithin fuel) true [] (fuel + 1) : JsonReader JsonValue) rest
      else if b == 0x22 then (Json.readText rest).map fun (t, rest) => (text t, rest)
      else if b == 0x6e then
        ((fun _ => null) <$> Json.readNull : JsonReader JsonValue) (b :: rest)
      else if b == 0x74 ∨ b == 0x66 then
        (boolean <$> Json.readBoolean : JsonReader JsonValue) (b :: rest)
      else if b == 0x2d ∨ Json.isDigit b then
        (Json.readNumber (b :: rest)).map fun (n, rest) => (number n, rest)
      else .error ⟨.expectedValue, rest⟩

/-- A value of any form. -/
def read : JsonReader JsonValue := fun input => readWithin (input.length + 1) input

/-- The value of a whole text. -/
def decode (input : List UInt8) : Except JsonFailure JsonValue := Json.readDocument read input

/-! ## Values of one form -/

/-- The member of an object that has a key. -/
def member? (key : String) : JsonValue → Option JsonValue
  | object members => (members.find? (·.1 == key)).map Prod.snd
  | _ => none

def asBoolean : JsonValue → Except JsonError Bool
  | boolean value => .ok value
  | other => .error (.invalidType other.found "a boolean")

def asText : JsonValue → Except JsonError String
  | text value => .ok value
  | other => .error (.invalidType other.found "a string")

/-- An integer of a type. -/
def asInteger (type : Json.IntegerType) : JsonValue → Except JsonError Int
  | number (.integer value) =>
    if type.min ≤ value ∧ value ≤ type.max then .ok value
    else .error (.invalidValue (.integer value) type.name)
  | other => .error (.invalidType other.found type.name)

/-- The value of a name. -/
def valueOf {α : Type} (names : List String) (ofName? : String → Option α) (name : String) :
    Except JsonError α :=
  match ofName? name with
  | some value => .ok value
  | none => .error (.unknownVariant name names)

/-- A value given by its name: a text, or an object with the name as its only
    key and `null` as the value. -/
def asName {α : Type} (names : List String) (ofName? : String → Option α) :
    JsonValue → Except JsonError α
  | text name => valueOf names ofName? name
  | object [(name, content)] => do
    let value ← valueOf names ofName? name
    match content with
    | null => return value
    | other => throw (.invalidType other.found "unit")
  | object _ => .error (.invalidValue .map "map with a single key")
  | other => .error (.invalidType other.found "string or map")

def asList : JsonValue → Except JsonError (List JsonValue)
  | list values => .ok values
  | other => .error (.invalidType other.found "a sequence")

end JsonValue

end FuzzyPath
