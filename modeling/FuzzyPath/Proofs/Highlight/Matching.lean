/-
  FuzzyPath — how the editor matches a highlight pattern.

  * a `Place` cuts a line in two; `places` are all of them, from left to right;
  * a `Walk` is how far the pieces of an alternative have been followed, with
    the bounds of the match that stood on the way; `Walk.atom?` and
    `Walk.piece?` follow one atom and one piece;
  * `Pattern.matchAt?` is the match at a place, by the first alternative that
    has one; `Pattern.Matches` are the matches of all alternatives at all
    places;
  * `Pattern.search` are the matches that the editor shows: it takes the
    leftmost one, and goes on where that ended.
-/
import FuzzyPath.Highlight.Pattern

namespace FuzzyPath

/-! ## Places -/

/-- A place between two characters of a line, or at one of its ends. -/
structure Place where
  before : List Char
  after : List Char
  deriving DecidableEq, Repr

/-- The number of bytes before a place. -/
def Place.offset (place : Place) : Nat := (String.ofList place.before).utf8ByteSize

/-- The places of a line, from left to right. -/
def places : List Char → List Place
  | [] => [⟨[], []⟩]
  | c :: cs => ⟨[], c :: cs⟩ :: (places cs).map fun place => ⟨c :: place.before, place.after⟩

/-! ## Ways through a line -/

/-- How far some atoms have been followed. -/
structure Walk where
  place : Place
  /-- The offset where the match begins, if an atom has set it. -/
  start : Option Nat
  /-- The offset where the match ends, if an atom has set it. -/
  stop : Option Nat
  deriving DecidableEq, Repr

namespace Walk

/-- A walk that begins at a place. -/
def begin (place : Place) : Walk := ⟨place, none, none⟩

/-- The walk that goes on over the literal `c`, or has an atom without width
    behind it; `none` if the atom does not match. -/
def atom? (walk : Walk) : Atom → Option Walk
  | .literal c =>
    match walk.place.after with
    | [] => none
    | next :: after =>
      if next = c then some { walk with place := ⟨walk.place.before ++ [c], after⟩ } else none
  | .lineStart => if walk.place.before.isEmpty then some walk else none
  | .lineEnd => if walk.place.after.isEmpty then some walk else none
  | .matchStart => some { walk with start := some walk.place.offset }
  | .matchEnd => some { walk with stop := some walk.place.offset }

/-- The walk that follows some atoms. -/
def atoms? (walk : Walk) (atoms : List Atom) : Option Walk := atoms.foldlM atom? walk

/-- Whether some atoms lead from a place at or before `place` right to it. -/
def isBehind (atoms : List Atom) (place : Place) : Bool :=
  (places place.before).any fun earlier =>
    ((begin ⟨earlier.before, earlier.after ++ place.after⟩).atoms? atoms).map (·.place) = some place

/-- Whether some atoms lead on from `place`. -/
def isAhead (atoms : List Atom) (place : Place) : Bool := ((begin place).atoms? atoms).isSome

/-- The walk that follows a piece.  What has to stand around the match does not
    move it. -/
def piece? (walk : Walk) : Piece → Option Walk
  | .atom a => walk.atom? a
  | .behind atoms => if isBehind atoms walk.place then some walk else none
  | .ahead atoms => if isAhead atoms walk.place then some walk else none

/-- The match of a row of pieces that begins at `place`. -/
def match? (row : List Piece) (place : Place) : Option Span :=
  (row.foldlM piece? (begin place)).map fun walk =>
    ⟨walk.start.getD place.offset, walk.stop.getD walk.place.offset⟩

end Walk

/-! ## Matches -/

namespace Pattern

/-- The match at a place. -/
def matchAt? (p : Pattern) (place : Place) : Option Span :=
  p.alternatives.findSome? (Walk.match? · place)

/-- Whether some alternative has the match `span` at some place of `line`. -/
def Matches (p : Pattern) (line : String) (span : Span) : Prop :=
  ∃ place ∈ places line.toList, ∃ row ∈ p.alternatives, Walk.match? row place = some span

/-- The matches that begin at the places listed, and not before the offset
    `free`.  The search goes on at the end of a match, and at least one
    character after where it looked for that match. -/
def searchFrom (p : Pattern) (free : Nat) : List Place → List Span
  | [] => []
  | place :: later =>
    if place.offset < free then searchFrom p free later
    else
      match p.matchAt? place with
      | some span => span :: searchFrom p (max span.stop (place.offset + 1)) later
      | none => searchFrom p free later

/-- The matches in a line, one after the other. -/
def search (p : Pattern) (line : String) : List Span := searchFrom p 0 (places line.toList)

end Pattern

end FuzzyPath
