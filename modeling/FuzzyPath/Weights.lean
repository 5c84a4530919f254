/-
  FuzzyPath — the weights of the scoring factors.

  The weights per matched character are 32-bit integers and those per
  candidate 64-bit ones, as callers give them.

  * `Weights.standard` are the weights used where the caller gives none;
  * `Weights.validate` refuses weights that are negative, or so large that
    scores could leave their range.
-/
namespace FuzzyPath

/-- The weights of the scoring factors. -/
structure Weights where
  /-- For each matched character. -/
  matchBase : Int32
  /-- For a match directly after the one before it. -/
  consecutiveBonus : Int32
  /-- For the first character of a path component. -/
  componentStartBonus : Int32
  /-- For the first character after punctuation. -/
  wordStartBonus : Int32
  /-- For a capital after a small letter. -/
  camelCaseBonus : Int32
  /-- For a match within the file name of a path. -/
  filenameBonus : Int32
  /-- For a match in the same case. -/
  exactCaseBonus : Int32
  /-- Taken off for a gap between two matches. -/
  gapOpenPenalty : Int32
  /-- Taken off for each character of a gap after the first. -/
  gapExtendPenalty : Int32
  /-- Taken off for a gap that crosses a separator. -/
  componentGapPenalty : Int32
  /-- The number of unmatched characters that halves a score. -/
  lengthScale : Int64
  /-- Taken off the current file's score. -/
  currentFilePenalty : Int64
  /-- Taken off for each directory step away from the current file. -/
  proximityPenalty : Int64
  /-- Directory steps beyond this number do not count. -/
  maxProximityDistance : UInt64
  /-- For each leading word of the file name shared with the current file. -/
  sharedWordBonus : Int64
  deriving DecidableEq, Repr

/-- A weight out of its range. -/
inductive WeightError where
  | outside (name : String) (min max value : Int)
  | above (name : String) (max value : Nat)
  deriving DecidableEq, Repr

def WeightError.message : WeightError → String
  | outside name min max value => s!"weight {name} must be within {min}..={max}, got {value}"
  | above name max value => s!"weight {name} must be at most {max}, got {value}"

namespace Weights

/-- The weights used where the caller gives none. -/
def standard : Weights where
  matchBase := 16
  consecutiveBonus := 10
  componentStartBonus := 16
  wordStartBonus := 14
  camelCaseBonus := 14
  filenameBonus := 10
  exactCaseBonus := 1
  gapOpenPenalty := 4
  gapExtendPenalty := 1
  componentGapPenalty := 4
  lengthScale := 128
  currentFilePenalty := 5000
  proximityPenalty := 200
  maxProximityDistance := 16
  sharedWordBonus := 800

/-- The largest weight per character. -/
def maxCharWeight : Int := 4096

/-- The largest adjustment per candidate. -/
def maxAdjustment : Int := 4294967296

/-- The largest length scale. -/
def maxLengthScale : Int := 1048576

/-- The largest number of directory steps that can be made to count. -/
def maxDistance : Nat := 65536

/-- The signed weights by name, each with the least and the greatest value
    allowed, in the order in which they are checked. -/
def ranges (w : Weights) : List (String × Int × Int × Int) :=
  [("match_base", w.matchBase.toInt, 0, maxCharWeight),
   ("consecutive_bonus", w.consecutiveBonus.toInt, 0, maxCharWeight),
   ("component_start_bonus", w.componentStartBonus.toInt, 0, maxCharWeight),
   ("word_start_bonus", w.wordStartBonus.toInt, 0, maxCharWeight),
   ("camel_case_bonus", w.camelCaseBonus.toInt, 0, maxCharWeight),
   ("filename_bonus", w.filenameBonus.toInt, 0, maxCharWeight),
   ("exact_case_bonus", w.exactCaseBonus.toInt, 0, maxCharWeight),
   ("gap_open_penalty", w.gapOpenPenalty.toInt, 0, maxCharWeight),
   ("gap_extend_penalty", w.gapExtendPenalty.toInt, 0, maxCharWeight),
   ("component_gap_penalty", w.componentGapPenalty.toInt, 0, maxCharWeight),
   ("length_scale", w.lengthScale.toInt, 1, maxLengthScale),
   ("current_file_penalty", w.currentFilePenalty.toInt, 0, maxAdjustment),
   ("proximity_penalty", w.proximityPenalty.toInt, 0, maxAdjustment),
   ("shared_word_bonus", w.sharedWordBonus.toInt, 0, maxAdjustment)]

/-- The first value that is out of its range is refused. -/
def checkRanges : List (String × Int × Int × Int) → Except WeightError Unit
  | [] => .ok ()
  | (name, value, min, max) :: rest =>
    if min ≤ value ∧ value ≤ max then checkRanges rest else .error (.outside name min max value)

/-- Refuses weights out of their ranges. -/
def validate (w : Weights) : Except WeightError Unit := do
  checkRanges w.ranges
  if w.maxProximityDistance.toNat > maxDistance then
    throw (.above "max_proximity_distance" maxDistance w.maxProximityDistance.toNat)

end Weights

end FuzzyPath
