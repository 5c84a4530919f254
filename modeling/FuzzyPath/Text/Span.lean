/-
  FuzzyPath — byte ranges of a text.

  Offsets count UTF-8 bytes; an offset is a boundary if a character begins or
  the text ends there.

  * `floorBoundary` and `ceilBoundary` round an offset to the nearest boundary
    on either side;
  * a `Span` is a half-open byte range, and `Span.slice` the text it covers:
    the empty text if it is no range between two boundaries.
-/
namespace FuzzyPath

/-! ## Boundaries -/

/-- Whether a character of `text` begins at `offset`, or `text` ends there. -/
def isBoundary (text : String) (offset : Nat) : Bool :=
  String.Pos.Raw.isValid text ⟨offset⟩

theorem isBoundary_zero (text : String) : isBoundary text 0 = true := by
  rw [isBoundary, String.Pos.Raw.isValid_eq_true_iff]
  exact String.Pos.Raw.isValid_zero

/-- The last boundary at or before `offset`, searched from there down. -/
def boundaryBelow (text : String) : Nat → Nat
  | 0 => 0
  | offset + 1 => if isBoundary text (offset + 1) then offset + 1 else boundaryBelow text offset

/-- The first boundary among the `steps` offsets from `offset` on, or the
    offset after them. -/
def boundaryAbove (text : String) (offset : Nat) : Nat → Nat
  | 0 => offset
  | steps + 1 =>
    if isBoundary text offset then offset else boundaryAbove text (offset + 1) steps

/-- `offset` rounded down to a boundary of `text`. -/
def floorBoundary (text : String) (offset : Nat) : Nat :=
  boundaryBelow text (min offset text.utf8ByteSize)

/-- `offset` rounded up to a boundary of `text`; the end of the text for an
    offset beyond it. -/
def ceilBoundary (text : String) (offset : Nat) : Nat :=
  let start := min offset text.utf8ByteSize
  boundaryAbove text start (text.utf8ByteSize - start)

/-! ## Spans -/

/-- The bytes from `start` up to, but not including, `stop`. -/
structure Span where
  start : Nat
  stop : Nat
  deriving DecidableEq, Repr

namespace Span

/-- The number of bytes of a span that is a range. -/
def length (s : Span) : Nat := s.stop - s.start

def isEmpty (s : Span) : Bool := s.stop ≤ s.start

def contains (s : Span) (offset : Nat) : Bool := s.start ≤ offset && offset < s.stop

/-- The span moved `bytes` bytes to the right. -/
def shift (s : Span) (bytes : Nat) : Span := ⟨s.start + bytes, s.stop + bytes⟩

/-- The text between two boundaries of `text`; `none` if `s` is not such a
    range. -/
def slice? (s : Span) (text : String) : Option String :=
  if s.start ≤ s.stop then
    if hstart : isBoundary text s.start then
      if hstop : isBoundary text s.stop then
        some (text.extract ⟨⟨s.start⟩, String.Pos.Raw.isValid_eq_true_iff.1 hstart⟩
          ⟨⟨s.stop⟩, String.Pos.Raw.isValid_eq_true_iff.1 hstop⟩)
      else none
    else none
  else none

/-- The text that a span covers, empty if there is none. -/
def slice (s : Span) (text : String) : String := (s.slice? text).getD ""

end Span

end FuzzyPath
