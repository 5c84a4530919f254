/-
  FuzzyPath — how deeply patterns for paths are nested.

  What counts is whatever stands around something else: sets, repetitions,
  braces, rows of several pieces, and choices between several rows.

  * `Glob.nesting` is the depth of a pattern, and `maxGlobNesting` the greatest
    one that is allowed.
-/
import FuzzyPath.Files.Glob

namespace FuzzyPath

/-- The number of pieces of a part: two for a slash and all that follows it. -/
def GlobPart.pieces (part : GlobPart) : Nat :=
  match part with
  | .trailing => 2
  | part => if part.isBlank then 0 else 1

/-- One level more if there are several things on it. -/
def severalLevel (count : Nat) : Nat := if 2 ≤ count then 1 else 0

mutual

/-- How many levels a part of a pattern has. -/
def GlobPart.nesting : GlobPart → Nat
  | .byte _ => 0
  | .one => 1
  | .many => 2
  | .oneOf _ ranges => 1 + severalLevel ranges.length
  | .leading | .between => 4
  | .trailing => 1
  | .choice branches =>
    if areBlank branches then 0
    else 1 + severalLevel (branches.filter (!isBlankRow ·)).length + anyNesting branches

/-- How many levels the deepest of some parts has. -/
def rowNesting : List GlobPart → Nat
  | [] => 0
  | part :: parts => max part.nesting (rowNesting parts)

/-- How many levels the deepest of some patterns has. -/
def anyNesting : List (List GlobPart) → Nat
  | [] => 0
  | parts :: branches =>
    max (severalLevel (parts.map GlobPart.pieces).sum + rowNesting parts) (anyNesting branches)

end

/-- How many levels a pattern has; as a whole it counts as a row. -/
def Glob.nesting (g : Glob) : Nat := 1 + rowNesting g.parts

/-- The greatest number of levels of a pattern. -/
def maxGlobNesting : Nat := 250

end FuzzyPath
