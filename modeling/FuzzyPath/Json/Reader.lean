/-
  FuzzyPath — reading JSON values of a known form.

  A reader takes what is left of the input and gives a value and what is left
  after it.  A value of another form than the one wanted is described in the
  error, as far as that takes no more than reading one token.  The place of an
  error is after the byte that shows it, or after the value that it is about.

  * `readLiteral`, `readBoolean`, `readInteger`, `readString`, `readList` and
    `readName` read values of one form each;
  * `skipValue` passes over any value;
  * `readDocument` reads a whole input.
-/
import FuzzyPath.Json.Number
import FuzzyPath.Json.Text

namespace FuzzyPath

/-- Reads a value from the front of some bytes. -/
abbrev JsonReader (α : Type) := StateT (List UInt8) (Except JsonFault) α

namespace Json

/-! ## Tokens -/

/-- Whether a byte is blank space between tokens. -/
def isBlank (b : UInt8) : Bool := b == 0x20 || b == 0x0a || b == 0x09 || b == 0x0d

/-- The input from the next token on. -/
def skipBlank (input : List UInt8) : List UInt8 := input.dropWhile isBlank

/-- The bytes of a name of ASCII letters. -/
def bytesOf (name : String) : List UInt8 := utf8 name

/-- An error in front of what is left of the input. -/
def fail {α : Type} (err : JsonError) : JsonReader α := fun input => .error ⟨err, input⟩

/-- The rest of a literal name, whose bytes still to come are `name`. -/
def readLiteral : (name : List UInt8) → List UInt8 → Except JsonFault (List UInt8)
  | [], input => .ok input
  | _ :: _, [] => .error ⟨.endOfValue, []⟩
  | n :: name, b :: rest =>
    if b == n then readLiteral name rest else .error ⟨.expectedIdent, rest⟩

/-- What stands at the front of the input, which is no value of the form
    `expected`. -/
def mismatch (expected : String) (input : List UInt8) : JsonFault :=
  let wrong (found : Found) (rest : List UInt8) : JsonFault := ⟨.invalidType found expected, rest⟩
  let literal (name : String) (found : Found) : JsonFault :=
    match readLiteral (bytesOf name) input with
    | .ok rest => wrong found rest
    | .error fault => fault
  match input with
  | [] => ⟨.expectedValue, []⟩
  | b :: rest =>
    if b == 0x6e then literal "null" .null
    else if b == 0x74 then literal "true" (.boolean true)
    else if b == 0x66 then literal "false" (.boolean false)
    else if b == 0x2d || isDigit b then
      match readNumber input with
      | .ok (number, rest) => wrong number.found rest
      | .error fault => fault
    else if b == 0x22 then
      match readText rest with
      | .ok (text, rest) => wrong (.text text) rest
      | .error fault => fault
    else if b == 0x5b then wrong .sequence input
    else if b == 0x7b then wrong .map input
    else ⟨.expectedValue, rest⟩

/-! ## Scalars -/

/-- `true` or `false`. -/
def readBoolean : JsonReader Bool := fun input =>
  match skipBlank input with
  | [] => .error ⟨.endOfValue, []⟩
  | b :: rest =>
    if b == 0x74 then (readLiteral (bytesOf "rue") rest).map (true, ·)
    else if b == 0x66 then (readLiteral (bytesOf "alse") rest).map (false, ·)
    else .error (mismatch "a boolean" (b :: rest))

/-- `null`. -/
def readNull : JsonReader Unit := fun input =>
  match skipBlank input with
  | [] => .error ⟨.endOfValue, []⟩
  | b :: rest =>
    if b == 0x6e then (readLiteral (bytesOf "ull") rest).map ((), ·)
    else .error (mismatch "unit" (b :: rest))

/-- A type of integers. -/
structure IntegerType where
  name : String
  min : Int
  max : Int

/-- An integer of a type. -/
def readInteger (type : IntegerType) : JsonReader Int := fun input =>
  match skipBlank input with
  | [] => .error ⟨.endOfValue, []⟩
  | b :: rest =>
    if b == 0x2d || isDigit b then
      match readNumber (b :: rest) with
      | .error fault => .error fault
      | .ok (.integer value, rest) =>
        if type.min ≤ value ∧ value ≤ type.max then .ok (value, rest)
        else .error ⟨.invalidValue (.integer value) type.name, rest⟩
      | .ok (number, rest) => .error ⟨.invalidType number.found type.name, rest⟩
    else .error (mismatch type.name (b :: rest))

/-- A string, described as `expected` in errors. -/
def readStringAs (expected : String) : JsonReader String := fun input =>
  match skipBlank input with
  | [] => .error ⟨.endOfValue, []⟩
  | b :: rest =>
    if b == 0x22 then readText rest else .error (mismatch expected (b :: rest))

/-- A string. -/
def readString : JsonReader String := readStringAs "a string"

/-! ## Punctuation -/

/-- The colon after a key. -/
def readColon : JsonReader Unit := fun input =>
  match skipBlank input with
  | [] => .error ⟨.endOfObject, []⟩
  | b :: rest => if b == 0x3a then .ok ((), rest) else .error ⟨.expectedColon, rest⟩

/-- Whether another element of a list follows; `first` if there has been none.
    The comma before it is passed over, the closing bracket is not. -/
def nextElement (first : Bool) : JsonReader Bool := fun input =>
  match skipBlank input with
  | [] => .error ⟨.endOfList, []⟩
  | b :: rest =>
    if b == 0x5d then .ok (false, b :: rest)
    else if first then .ok (true, b :: rest)
    else if b == 0x2c then
      match skipBlank rest with
      | [] => .error ⟨.endOfValue, []⟩
      | c :: rest => if c == 0x5d then .error ⟨.trailingComma, rest⟩ else .ok (true, c :: rest)
    else .error ⟨.expectedListCommaOrEnd, rest⟩

/-- The end of a list from which all that was wanted has been read. -/
def endList : JsonReader Unit := fun input =>
  match skipBlank input with
  | [] => .error ⟨.endOfList, []⟩
  | b :: rest =>
    if b == 0x5d then .ok ((), rest)
    else if b == 0x2c then
      match skipBlank rest with
      | c :: rest => .error ⟨if c == 0x5d then .trailingComma else .trailingCharacters, rest⟩
      | [] => .error ⟨.trailingCharacters, []⟩
    else .error ⟨.trailingCharacters, rest⟩

/-- The next key of an object, or `none` at its end, which is passed over;
    `first` if there has been no key. -/
def nextKey (first : Bool) : JsonReader (Option String) := fun input =>
  let key (rest : List UInt8) := (readText rest).map fun (name, rest) => (some name, rest)
  match skipBlank input with
  | [] => .error ⟨.endOfObject, []⟩
  | b :: rest =>
    if b == 0x7d then .ok (none, rest)
    else if first then
      if b == 0x22 then key rest else .error ⟨.keyMustBeString, rest⟩
    else if b == 0x2c then
      match skipBlank rest with
      | [] => .error ⟨.endOfValue, []⟩
      | c :: rest =>
        if c == 0x22 then key rest
        else if c == 0x7d then .error ⟨.trailingComma, rest⟩
        else .error ⟨.keyMustBeString, rest⟩
    else .error ⟨.expectedObjectCommaOrEnd, rest⟩

/-- An error about an object whose members have been read up to here.  If the
    object ends here, its place is after the end. -/
def failObject {α : Type} (err : JsonError) : JsonReader α := fun input =>
  match skipBlank input with
  | b :: rest => .error ⟨err, if b == 0x7d then rest else b :: rest⟩
  | [] => .error ⟨err, []⟩

/-! ## Lists -/

/-- The elements of a list from the next one on; `done` are those before, last
    first.  There are fewer of them than `fuel`. -/
def readElements {α : Type} (element : JsonReader α) (done : List α) :
    (fuel : Nat) → JsonReader (List α)
  | 0 => fail .endOfList
  | fuel + 1 => do
    if ← nextElement done.isEmpty then
      let value ← element
      readElements element (value :: done) fuel
    else
      endList
      return done.reverse

/-- A list, in brackets. -/
def readList {α : Type} (element : JsonReader α) : JsonReader (List α) := fun input =>
  match skipBlank input with
  | [] => .error ⟨.endOfValue, []⟩
  | b :: rest =>
    if b == 0x5b then readElements element [] (rest.length + 1) rest
    else .error (mismatch "a sequence" (b :: rest))

/-! ## Names -/

/-- The value of a name that stands as a string. -/
def readNamed {α : Type} (names : List String) (ofName? : String → Option α) : JsonReader α := do
  let name ← readStringAs "variant identifier"
  match ofName? name with
  | some value => return value
  | none => fail (.unknownVariant name names)

/-- The start of the only key of an object, which has to be there. -/
def startSingle : JsonReader Unit := fun input =>
  match skipBlank input with
  | [] => .error ⟨.endOfObject, []⟩
  | b :: rest =>
    if b == 0x22 then .ok ((), b :: rest)
    else .error ⟨if b == 0x7d then .expectedValue else .keyMustBeString, rest⟩

/-- The end of an object with a single key. -/
def endSingle : JsonReader Unit := fun input =>
  match skipBlank input with
  | [] => .error ⟨.endOfObject, []⟩
  | b :: rest => if b == 0x7d then .ok ((), rest) else .error ⟨.expectedValue, b :: rest⟩

/-- A value given by its name: a string, or an object with the name as its only
    key and `null` as the value. -/
def readName {α : Type} (names : List String) (ofName? : String → Option α) : JsonReader α :=
  fun input =>
    match skipBlank input with
    | [] => .error ⟨.endOfValue, []⟩
    | b :: rest =>
      if b == 0x22 then readNamed names ofName? (b :: rest)
      else if b == 0x7b then
        (do
          startSingle
          let value ← readNamed names ofName?
          readColon
          readNull
          endSingle
          return value : JsonReader α) rest
      else .error ⟨.expectedValue, rest⟩

/-! ## Passing over values -/

/-- What is passed over next. -/
inductive Skipping where
  /-- A value. -/
  | value
  /-- An element of a list or a member of an object. -/
  | entry
  /-- What follows a value. -/
  | rest
  deriving DecidableEq, Repr

/-- Passes over what is left of a value.  Of the brackets that are open,
    `isObject` says whether they belong to an object, the innermost first. -/
def skipFrom (isObject : List Bool) (next : Skipping) :
    (fuel : Nat) → List UInt8 → Except JsonFault (List UInt8)
  | 0, input => .error ⟨.endOfValue, input⟩
  | fuel + 1, input =>
    match next, isObject with
    | .value, _ =>
      match skipBlank input with
      | [] => .error ⟨.endOfValue, []⟩
      | b :: rest =>
        if b == 0x6e then do skipFrom isObject .rest fuel (← readLiteral (bytesOf "ull") rest)
        else if b == 0x74 then do skipFrom isObject .rest fuel (← readLiteral (bytesOf "rue") rest)
        else if b == 0x66 then do skipFrom isObject .rest fuel (← readLiteral (bytesOf "alse") rest)
        else if b == 0x2d || isDigit b then do
          skipFrom isObject .rest fuel (← skipNumber (b :: rest))
        else if b == 0x22 then do skipFrom isObject .rest fuel (← skipText rest)
        else if b == 0x5b || b == 0x7b then
          let closing := if b == 0x7b then 0x7d else 0x5d
          let inner := (b == 0x7b) :: isObject
          match skipBlank rest with
          | [] => .error ⟨if b == 0x7b then .endOfObject else .endOfList, []⟩
          | c :: after =>
            if c == closing then skipFrom isObject .rest fuel after
            else skipFrom inner .entry fuel (c :: after)
        else .error ⟨.expectedValue, rest⟩
    | .entry, true :: _ =>
      match skipBlank input with
      | [] => .error ⟨.endOfObject, []⟩
      | b :: rest =>
        if b == 0x22 then do
          let rest ← skipText rest
          match ← readColon rest with
          | ((), rest) => skipFrom isObject .value fuel rest
        else .error ⟨.keyMustBeString, rest⟩
    | .entry, _ => skipFrom isObject .value fuel input
    | .rest, [] => .ok input
    | .rest, object :: outer =>
      match skipBlank input with
      | [] => .error ⟨if object then .endOfObject else .endOfList, []⟩
      | b :: rest =>
        if b == 0x2c then skipFrom isObject .entry fuel rest
        else if b == (if object then 0x7d else 0x5d) then skipFrom outer .rest fuel rest
        else
          .error ⟨if object then .expectedObjectCommaOrEnd else .expectedListCommaOrEnd, rest⟩

/-- Passes over a value of any form. -/
def skipValue : JsonReader Unit := fun input =>
  (skipFrom [] .value (3 * input.length + 3) input).map ((), ·)

/-! ## Documents -/

/-- The value that the whole input is. -/
def readDocument {α : Type} (reader : JsonReader α) (input : List UInt8) :
    Except JsonFailure α :=
  match reader input with
  | .error fault => .error (fault.within input)
  | .ok (value, rest) =>
    match skipBlank rest with
    | [] => .ok value
    | _ :: rest => .error (JsonFault.within input ⟨.trailingCharacters, rest⟩)

end Json

end FuzzyPath
