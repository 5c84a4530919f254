/-
  FuzzyPath — the components of a path.

  A path is cut at its separators; the empty pieces of leading, trailing or
  doubled separators are dropped.

  * `components` are the spans of the pieces, `filename` the last one and
    `directories` those before it;
  * `directoryDistance` counts the steps between two chains of directories:
    all that follows their common beginning.
-/
import FuzzyPath.Path.Style
import FuzzyPath.Text.Span

namespace FuzzyPath

namespace Path

/-- The spans found so far, last first, with the piece from `start` up to
    `stop` added unless it is empty. -/
def closePiece (found : List Span) (start stop : Nat) : List Span :=
  if start < stop then ⟨start, stop⟩ :: found else found

/-- The pieces of a text whose remaining characters begin at `offset`; the
    current piece began at `start`, and `found` are the pieces before it, last
    first. -/
def pieces (style : PathStyle) (found : List Span) (start offset : Nat) : List Char → List Span
  | [] => (closePiece found start offset).reverse
  | c :: cs =>
    if style.isSeparator c then
      pieces style (closePiece found start offset) (offset + c.utf8Size) (offset + c.utf8Size) cs
    else pieces style found start (offset + c.utf8Size) cs

/-- The non-empty components of a path, in order. -/
def components (style : PathStyle) (path : String) : List Span :=
  pieces style [] 0 0 path.toList

/-- The components before the file name. -/
def directories (style : PathStyle) (path : String) : List Span :=
  (components style path).dropLast

/-- The last non-empty component.  Separators at the end do not count: the
    file name of `a/b/` is `b`. -/
def filename (style : PathStyle) (path : String) : Option Span :=
  (components style path).getLast?

end Path

/-- The number of steps from one directory to another: what is left of both
    chains after their common beginning. -/
def directoryDistance : List String → List String → Nat
  | a :: as, b :: bs =>
    if a == b then directoryDistance as bs else (a :: as).length + (b :: bs).length
  | as, bs => as.length + bs.length

end FuzzyPath
