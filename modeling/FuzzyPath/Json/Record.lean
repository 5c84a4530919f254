/-
  FuzzyPath — records as JSON objects.

  A record is read from an object whose keys stand in any order, or from a list
  of its fields in their own order.  A field that is left out keeps the value
  it has in the initial record, unless it is required.  A key that is no field
  is an error where keys are strict, and is passed over otherwise; a key that
  stands twice is always an error.

  * a `Field` reads and writes one field of a record type;
  * a `RecordForm` lists the fields, and `RecordForm.codec` is the codec of the
    record.
-/
import FuzzyPath.Json.Codec

namespace FuzzyPath

/-- One field of a record. -/
structure Field (ρ : Type) where
  name : String
  required : Bool
  /-- Reads a value; the result puts it into a record. -/
  read : JsonReader (ρ → ρ)
  /-- Takes a value; the result puts it into a record. -/
  ofValue : JsonValue → Except JsonError (ρ → ρ)
  print : ρ → Document

namespace Field

variable {ρ α : Type}

/-- A field that may be left out. -/
def optional (name : String) (codec : Codec α) (get : ρ → α) (put : α → ρ → ρ) : Field ρ where
  name := name
  required := false
  read := put <$> codec.read
  ofValue v := put <$> codec.ofValue v
  print record := codec.print (get record)

/-- A field that has to be given. -/
def mandatory (name : String) (codec : Codec α) (get : ρ → α) (put : α → ρ → ρ) : Field ρ :=
  { optional name codec get put with required := true }

end Field

/-- The form of a record type. -/
structure RecordForm (ρ : Type) where
  /-- How error texts call the type. -/
  name : String
  fields : List (Field ρ)
  /-- The record of which nothing has been read. -/
  initial : ρ
  /-- Whether keys that are no fields are errors. -/
  strict : Bool

namespace RecordForm

variable {ρ : Type}

/-- The names of the fields, in order. -/
def fieldNames (form : RecordForm ρ) : List String := form.fields.map Field.name

/-- A field by its name. -/
def field? (form : RecordForm ρ) (name : String) : Option (Field ρ) :=
  form.fields.find? (·.name == name)

/-- The first required field that is not among those read. -/
def missing? (form : RecordForm ρ) (seen : List String) : Option (Field ρ) :=
  form.fields.find? fun field => field.required && !seen.contains field.name

/-- The members of an object from the next one on, put into `record`; `seen`
    are the fields before them.  There are fewer members than `fuel`. -/
def readMembers (form : RecordForm ρ) (first : Bool) (seen : List String) (record : ρ) :
    (fuel : Nat) → JsonReader ρ
  | 0 => Json.fail .endOfObject
  | fuel + 1 => do
    match ← Json.nextKey first with
    | none =>
      match form.missing? seen with
      | some field => Json.fail (.missingField field.name)
      | none => return record
    | some key =>
      match form.field? key with
      | some field =>
        if seen.contains key then Json.failObject (.duplicateField key)
        Json.readColon
        let put ← field.read
        readMembers form false (key :: seen) (put record) fuel
      | none =>
        if form.strict then Json.failObject (.unknownField key form.fieldNames)
        Json.readColon
        Json.skipValue
        readMembers form false seen record fuel

/-- What a list without a required field should have been. -/
def lengthText (form : RecordForm ρ) : String :=
  s!"struct {form.name} with {form.fields.length} elements"

/-- The elements of a list as the given fields, put into `record`; `index` is
    the number of fields before them. -/
def readInOrder (form : RecordForm ρ) (index : Nat) (record : ρ) :
    List (Field ρ) → JsonReader ρ
  | [] => do
    Json.endList
    return record
  | field :: fields => do
    if ← Json.nextElement (index == 0) then
      let put ← field.read
      readInOrder form (index + 1) (put record) fields
    else if field.required then
      Json.endList
      Json.fail (.invalidLength index form.lengthText)
    else
      readInOrder form (index + 1) record fields

/-- A record. -/
def read (form : RecordForm ρ) : JsonReader ρ := fun input =>
  match Json.skipBlank input with
  | [] => .error ⟨.endOfValue, []⟩
  | b :: rest =>
    if b == 0x5b then readInOrder form 0 form.initial form.fields rest
    else if b == 0x7b then readMembers form true [] form.initial (rest.length + 1) rest
    else .error (Json.mismatch s!"struct {form.name}" (b :: rest))

/-- The members of an object, put into `record`; `seen` are the fields before
    them. -/
def ofMembers (form : RecordForm ρ) (seen : List String) (record : ρ) :
    List (String × JsonValue) → Except JsonError ρ
  | [] =>
    match form.missing? seen with
    | some field => .error (.missingField field.name)
    | none => .ok record
  | (key, v) :: members =>
    match form.field? key with
    | some field => do
      if seen.contains key then throw (.duplicateField key)
      let put ← field.ofValue v
      ofMembers form (key :: seen) (put record) members
    | none =>
      if form.strict then .error (.unknownField key form.fieldNames)
      else ofMembers form seen record members

/-- The values of a list as the given fields, put into `record`; `index` is the
    number of values before them. -/
def ofValues (form : RecordForm ρ) (index : Nat) (record : ρ) :
    List (Field ρ) → List JsonValue → Except JsonError ρ
  | [], [] => .ok record
  | [], values => .error (.invalidLength (index + values.length) "fewer elements in array")
  | field :: fields, [] =>
    if field.required then .error (.invalidLength index form.lengthText)
    else ofValues form (index + 1) record fields []
  | field :: fields, v :: values => do
    let put ← field.ofValue v
    ofValues form (index + 1) (put record) fields values

/-- A record from a value. -/
def ofValue (form : RecordForm ρ) : JsonValue → Except JsonError ρ
  | .list values => form.ofValues 0 form.initial form.fields values
  | .object members => form.ofMembers [] form.initial members
  | other => .error (.invalidType other.found s!"struct {form.name}")

/-- An object with all fields, in order. -/
def print (form : RecordForm ρ) (record : ρ) : Document :=
  .object (form.fields.map fun field => (field.name, field.print record))

def codec (form : RecordForm ρ) : Codec ρ where
  read := form.read
  ofValue := form.ofValue
  print := form.print

end RecordForm

end FuzzyPath
