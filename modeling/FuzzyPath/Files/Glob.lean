/-
  FuzzyPath — patterns for paths.

  A pattern is about the bytes of a path.  `?` stands for one byte and `*` for
  any number of them, but for no slash; brackets stand for one byte of a set,
  braces for any of the patterns between their commas.  Two stars that take the
  place of a whole component stand for any number of components.

  * a `Glob` is a row of `GlobPart`s; `Glob.accepts` applies it to a path;
  * `Places` are the places that a row of parts can lead to in a text, and
    `GlobPart.after` goes on from them by a part;
  * `Glob.parse?` reads a pattern.
-/
import FuzzyPath.Text.Units

namespace FuzzyPath

/-! ## Patterns and what they stand for -/

/-- A part of a pattern. -/
inductive GlobPart where
  | byte (b : UInt8)
  /-- A byte that is no slash. -/
  | one
  /-- Any number of bytes that are no slashes. -/
  | many
  /-- A byte within one of the ranges, or, if `negated`, within none. -/
  | oneOf (negated : Bool) (ranges : List (UInt8 × UInt8))
  /-- The components that a path begins with, with the slash after them. -/
  | leading
  /-- All that follows a slash, with the slash. -/
  | trailing
  /-- The components between two slashes, with the slashes. -/
  | between
  /-- Any of some patterns. -/
  | choice (branches : List (List GlobPart))
  deriving Repr

/-- A pattern for paths. -/
structure Glob where
  parts : List GlobPart
  deriving Repr

/-- A slash. -/
def slash : UInt8 := 0x2f

/-! ## Places in a text -/

/-- Some of the places in a text: a flag for the place before each of its bytes,
    and one for its end. -/
abbrev Places := List Bool

namespace Places

/-- The place before a text. -/
def front (text : List UInt8) : Places := true :: text.map fun _ => false

/-- Whether the end of the text is one of some places. -/
def haveEnd (places : Places) : Bool := places.getLastD false

/-- The places of both. -/
def or (places others : Places) : Places := List.zipWith (· || ·) places others

/-- The places one byte behind some others, if `holds` accepts that byte. -/
def afterByte (holds : UInt8 → Bool) (text : List UInt8) (places : Places) : Places :=
  false :: List.zipWith (fun b isIn => isIn && holds b) text places

/-- The places any number of bytes behind some others, if `holds` accepts all
    these bytes; `isIn` if the text goes on from such a place. -/
def afterBytes (holds : UInt8 → Bool) (isIn : Bool) : List UInt8 → Places → Places
  | b :: text, place :: places =>
    (isIn || place) :: afterBytes holds ((isIn || place) && holds b) text places
  | _, places => places.map (isIn || ·)

/-- The places behind a slash. -/
def afterSlash (text : List UInt8) (places : Places) : Places := places.afterByte (· == slash) text

/-- Some places and all that follow them. -/
def onwards (text : List UInt8) (places : Places) : Places :=
  places.afterBytes (fun _ => true) false text

/-- Some places and those behind any slash that follows them. -/
def afterComponents (text : List UInt8) (places : Places) : Places :=
  places.or ((places.onwards text).afterSlash text)

end Places

/-! ## What patterns accept -/

mutual

/-- Whether a part stands for nothing but the empty text because it is a choice
    without patterns. -/
def GlobPart.isBlank : GlobPart → Bool
  | .choice branches => areBlank branches
  | _ => false

/-- Whether all parts of a pattern are blank. -/
def isBlankRow : List GlobPart → Bool
  | [] => true
  | part :: parts => part.isBlank && isBlankRow parts

/-- Whether all parts of some patterns are blank. -/
def areBlank : List (List GlobPart) → Bool
  | [] => true
  | parts :: branches => isBlankRow parts && areBlank branches

end

mutual

/-- The places behind what a part of a pattern stands for, if that starts at
    some places. -/
def GlobPart.after (text : List UInt8) : GlobPart → Places → Places
  | .byte b, places => places.afterByte (· == b) text
  | .one, places => places.afterByte (· != slash) text
  | .many, places => places.afterBytes (· != slash) false text
  | .oneOf negated ranges, places =>
    places.afterByte
      (fun b => (ranges.any fun (first, last) => first ≤ b && b ≤ last) != negated) text
  | .leading, places => places.afterComponents text
  | .trailing, places => (places.afterSlash text).onwards text
  | .between, places => (places.afterSlash text).afterComponents text
  | .choice branches, places =>
    if areBlank branches then places else afterAny text branches places

/-- The places behind what the parts of a pattern stand for. -/
def afterRow (text : List UInt8) : List GlobPart → Places → Places
  | [], places => places
  | part :: parts, places => afterRow text parts (part.after text places)

/-- The places behind what any of some patterns stands for.  Blank patterns do
    not count. -/
def afterAny (text : List UInt8) : List (List GlobPart) → Places → Places
  | [], places => places.map fun _ => false
  | parts :: branches, places =>
    if isBlankRow parts then afterAny text branches places
    else (afterRow text parts places).or (afterAny text branches places)

end

/-- Whether a pattern stands for a path.  Two stars alone stand for all
    paths. -/
def Glob.accepts (g : Glob) (path : List UInt8) : Bool :=
  match g.parts with
  | [.leading] => true
  | parts => (afterRow path parts (.front path)).haveEnd

/-! ## Sets of bytes -/

/-- A set of characters that is read from a pattern. -/
structure SetReader where
  /-- The ranges so far, last first. -/
  ranges : List (Char × Char)
  /-- Whether a hyphen waits for the end of the last range. -/
  isOpen : Bool

/-- A set with one more character; `none` if it ends a range before its
    start. -/
def SetReader.add? (s : SetReader) (c : Char) : Option SetReader :=
  match s.isOpen, s.ranges with
  | true, (first, _) :: ranges =>
    if c < first then none else some ⟨(first, c) :: ranges, false⟩
  | _, ranges => some ⟨(c, c) :: ranges, false⟩

/-- What comes of reading a set: its ranges and what follows it. -/
inductive SetRead where
  | complete (ranges : List (Char × Char)) (rest : List Char)
  /-- There is no closing bracket. -/
  | unclosed
  | malformed

/-- Reads a set up to its closing bracket, which does not count as such at the
    front (`first`). -/
def readSet (first : Bool) (s : SetReader) : List Char → SetRead
  | [] => .unclosed
  | c :: rest =>
    if c = ']' ∧ !first then
      .complete ((if s.isOpen then ('-', '-') :: s.ranges else s.ranges).reverse) rest
    else if c = '-' ∧ !first ∧ !s.isOpen then readSet false { s with isOpen := true } rest
    else
      match s.add? c with
      | some s => readSet false s rest
      | none => .malformed

/-- The bytes that a range of characters stands for.  Characters of several
    bytes count as these bytes one by one: the range goes from the last of them
    to the first of the next. -/
def byteRanges (range : Char × Char) : List (UInt8 × UInt8) :=
  let single (b : UInt8) := (b, b)
  let first := utf8Chars [range.1]
  let last := utf8Chars [range.2]
  if range.1 = range.2 then first.map single
  else
    first.dropLast.map single ++ [(first.getLastD 0, last.headD 0)] ++ last.tail.map single

/-! ## Reading patterns -/

/-- A pattern that is being read. -/
structure GlobReader where
  /-- The parts of the pattern at hand, last first. -/
  row : List GlobPart
  /-- The patterns before it within its braces, last first. -/
  branches : List (List GlobPart)
  /-- The rows and patterns that go on after its braces and those around
      them, innermost first. -/
  outer : List (List GlobPart × List (List GlobPart))
  /-- The character before the one at hand. -/
  prev : Option Char
  /-- Whether brackets can be sets: after one that is not closed they stand for
      themselves. -/
  hasSets : Bool

namespace GlobReader

def start : GlobReader := ⟨[], [], [], none, true⟩

def push (r : GlobReader) (part : GlobPart) : GlobReader := { r with row := part :: r.row }

/-- A character that stands for itself. -/
def pushChar (r : GlobReader) (c : Char) : GlobReader :=
  { r with row := (utf8Chars [c]).reverse.map .byte ++ r.row }

/-- Whether the pattern at hand is within braces. -/
def isNested (r : GlobReader) : Bool := !r.outer.isEmpty

/-- The start of braces. -/
def openBrace (r : GlobReader) : GlobReader :=
  { r with row := [], branches := [], outer := (r.row, r.branches) :: r.outer }

/-- The end of a pattern within braces. -/
def nextBranch (r : GlobReader) : GlobReader :=
  { r with row := [], branches := r.row.reverse :: r.branches }

/-- The end of braces; `none` if there has been no start. -/
def closeBrace? (r : GlobReader) : Option GlobReader :=
  match r.outer with
  | [] => none
  | (row, branches) :: outer =>
    let all := (r.row.reverse :: r.branches).reverse
    some { r with row := .choice all :: row, branches, outer }

/-- The pattern with two stars after something else that take the place of
    components: of the last ones if `isLast`.  They stand for the slash before
    them, too. -/
def pushDeep (r : GlobReader) (isLast : Bool) : GlobReader :=
  match r.row with
  | .leading :: _ => r
  | .trailing :: _ => r
  | _ :: row => { r with row := (if isLast then .trailing else .between) :: row }
  | [] => r

/-- Two stars within a component. -/
def pushStars (r : GlobReader) : GlobReader := (r.push .many).push .many

/-- Reads two stars: the pattern with them, and what is left after them and a
    slash that belongs to them. -/
def readStars (r : GlobReader) (rest : List Char) : GlobReader × List Char :=
  let starred (r : GlobReader) : GlobReader := { r with prev := some '*' }
  let slashed (r : GlobReader) : GlobReader := { r with prev := some '/' }
  if r.row.isEmpty then
    match rest with
    | [] => (starred (r.push .leading), [])
    | '/' :: rest => (slashed (r.push .leading), rest)
    | rest => (starred r.pushStars, rest)
  else if r.prev = some '/' ∨ (r.isNested ∧ (r.prev = some ',' ∨ r.prev = some '\x7b')) then
    match rest with
    | [] => (starred (r.pushDeep true), [])
    | '/' :: rest => (slashed (r.pushDeep false), rest)
    | c :: rest =>
      if r.isNested ∧ (c = ',' ∨ c = '\x7d') then (starred (r.pushDeep true), c :: rest)
      else (starred r.pushStars, c :: rest)
  else (starred r.pushStars, rest)

/-- Reads a set after its opening bracket; `none` if it is malformed. -/
def readClass? (r : GlobReader) (rest : List Char) : Option (GlobReader × List Char) :=
  let (negated, inner) := match rest with
    | c :: inner => if c = '!' ∨ c = '^' then (true, inner) else (false, rest)
    | [] => (false, [])
  match readSet true ⟨[], false⟩ inner with
  | .complete ranges rest =>
    some ({ r.push (.oneOf negated (ranges.flatMap byteRanges)) with prev := some ']' }, rest)
  | .unclosed => some ({ r.pushChar '[' with hasSets := false, prev := some '[' }, rest)
  | .malformed => none

/-- Reads what is left of a pattern, of fewer characters than `fuel`.  A
    backslash takes the meaning from the next character. -/
def readParts (r : GlobReader) : (fuel : Nat) → List Char → Option GlobReader
  | _, [] => some r
  | 0, _ => none
  | fuel + 1, c :: rest =>
    let after (r : GlobReader) : GlobReader := { r with prev := some c }
    match c, rest with
    | '?', _ => readParts (after (r.push .one)) fuel rest
    | '*', '*' :: rest =>
      let (r, rest) := r.readStars rest
      readParts r fuel rest
    | '*', _ => readParts (after (r.push .many)) fuel rest
    | '\x7b', _ => readParts (after r.openBrace) fuel rest
    | '\x7d', _ => do readParts (after (← r.closeBrace?)) fuel rest
    | '\\', d :: rest => readParts { r.pushChar d with prev := some d } fuel rest
    | '\\', [] => none
    | _, _ =>
      if c = '[' ∧ r.hasSets then
        match r.readClass? rest with
        | some (r, rest) => readParts r fuel rest
        | none => none
      else if c = ',' ∧ r.isNested then readParts (after r.nextBranch) fuel rest
      else readParts (after (r.pushChar c)) fuel rest

end GlobReader

/-- The pattern that a text says, if it is well formed. -/
def Glob.parse? (text : List Char) : Option Glob :=
  match GlobReader.start.readParts (text.length + 1) text with
  | some r => if r.isNested then none else some ⟨r.row.reverse⟩
  | none => none

end FuzzyPath
