/-
  FuzzyPath — the two ways of reading text.

  In `bytes` mode a text is its UTF-8 bytes, each widened to the character of
  the same value, and only ASCII letters have case.  In `unicode` mode it is
  its characters, with the letter classes and lowercase forms of Unicode.

  * `TextMode.isUpper`, `isLower`, `isAlphanumeric` and `isNumber` are the
    letter classes of a mode, and `fold` its case folding;
  * on ASCII characters the two modes agree: `fold_of_isAscii` and
    `isUpper_of_isAscii` (and the like for the other classes).
-/
import FuzzyPath.Text.Uppercase
import FuzzyPath.Text.Lowercase
import FuzzyPath.Text.Alphanumeric
import FuzzyPath.Text.Numeric
import FuzzyPath.Text.LowercaseForm

namespace FuzzyPath

/-- How texts are split into units and how the units are classified. -/
inductive TextMode where
  /-- Bytes, with ASCII letters only. -/
  | bytes
  /-- Characters, with all of Unicode's letters. -/
  | unicode
  deriving DecidableEq, Repr

/-- Membership of a character in a Unicode class: the ASCII part is given by
    `ascii`, the rest by the table `runs`. -/
def inClass (ascii : Char → Bool) (runs : List CodePointRun) (c : Char) : Bool :=
  if c.val < 0x80 then ascii c else CodePoints.mem runs c.toNat

/-- The lowercase form of a code point beyond ASCII, by the table of shifts. -/
def lowercaseShift? (c : Nat) : List (Nat × Nat × Nat × Int) → Option Int
  | [] => none
  | (first, last, step, shift) :: runs =>
    if c < first then none
    else if CodePointRun.contains (first, last, step) c then some shift
    else lowercaseShift? c runs

/-- The lowercase form of a character, if it is one character; the character
    itself otherwise.  One unit of a query thus always stands against one unit
    of a candidate. -/
def lowercaseForm (c : Char) : Char :=
  if c.val < 0x80 then c.toLower
  else match lowercaseShift? c.toNat lowercaseShifts with
    | some shift => Char.ofNat (c.toNat + shift).toNat
    | none => c

namespace TextMode

/-- The mode selected by a Unicode switch. -/
def ofSwitch (unicodeOn : Bool) : TextMode := if unicodeOn then .unicode else .bytes

/-- A unit as it is compared when case is ignored. -/
def fold : TextMode → Char → Char
  | bytes, c => c.toLower
  | unicode, c => lowercaseForm c

def isUpper : TextMode → Char → Bool
  | bytes, c => c.isUpper
  | unicode, c => inClass Char.isUpper uppercaseRuns c

def isLower : TextMode → Char → Bool
  | bytes, c => c.isLower
  | unicode, c => inClass Char.isLower lowercaseRuns c

def isAlphanumeric : TextMode → Char → Bool
  | bytes, c => c.isAlphanum
  | unicode, c => inClass Char.isAlphanum alphanumericRuns c

def isNumber : TextMode → Char → Bool
  | bytes, c => c.isDigit
  | unicode, c => inClass Char.isDigit numericRuns c

/-! ## ASCII -/

theorem fold_of_isAscii {c : Char} (h : c.val < 0x80) : fold unicode c = fold bytes c := by
  simp [fold, lowercaseForm, h]

theorem isUpper_of_isAscii {c : Char} (h : c.val < 0x80) : isUpper unicode c = isUpper bytes c := by
  simp [isUpper, inClass, h]

theorem isLower_of_isAscii {c : Char} (h : c.val < 0x80) : isLower unicode c = isLower bytes c := by
  simp [isLower, inClass, h]

theorem isAlphanumeric_of_isAscii {c : Char} (h : c.val < 0x80) :
    isAlphanumeric unicode c = isAlphanumeric bytes c := by
  simp [isAlphanumeric, inClass, h]

theorem isNumber_of_isAscii {c : Char} (h : c.val < 0x80) :
    isNumber unicode c = isNumber bytes c := by
  simp [isNumber, inClass, h]

end TextMode

end FuzzyPath
