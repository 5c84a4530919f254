/-
  FuzzyPath — white space.

  * `blankRuns` lists the code points with the property `White_Space`, and
    `isWhiteSpace` is membership in it.
-/
import FuzzyPath.Text.CodePoints

namespace FuzzyPath

/-- The code points with the property `White_Space`. -/
def blankRuns : List CodePointRun :=
  [(0x09, 0x0d, 1), (0x20, 0x20, 1), (0x85, 0x85, 1), (0xa0, 0xa0, 1), (0x1680, 0x1680, 1),
  (0x2000, 0x200a, 1), (0x2028, 0x2029, 1), (0x202f, 0x202f, 1), (0x205f, 0x205f, 1),
  (0x3000, 0x3000, 1)]

/-- Whether a character is white space. -/
def isWhiteSpace (c : Char) : Bool := CodePoints.mem blankRuns c.toNat

end FuzzyPath
