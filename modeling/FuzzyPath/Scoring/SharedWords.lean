/-
  FuzzyPath — words that two file names begin with.

  Files that belong together often begin with the same words: `foo.md`,
  `foo_test.md`, `fooBar.md`.  The words are those of the stem, the name up to
  its last dot; a name without a dot has none.

  * `stem?` is the stem of a name and `wordEnds` the offsets at which its words
    end;
  * `sharedLeadingWords` counts the words of one name that another begins with.
-/
import FuzzyPath.Text.Units
import FuzzyPath.Text.Span

namespace FuzzyPath

/-- The characters before the last dot of a name. -/
def stem? (name : List Char) : Option (List Char) :=
  match name.reverse.dropWhile (· != '.') with
  | [] => none
  | _ :: before => some before.reverse

/-- Whether a word ends between the characters `p` and `c`: before whatever is
    no letter or number, and before a capital that follows none. -/
def wordBreaks (mode : TextMode) (p c : Char) : Bool :=
  mode.isAlphanumeric p &&
    (!mode.isAlphanumeric c || (!mode.isUpper p && mode.isUpper c))

/-- The offsets at which words end in a text that begins at `offset`, after the
    character `prev`; `found` are those before, last first. -/
def wordEndsFrom (mode : TextMode) (found : List Nat) (prev : Option Char) (offset : Nat) :
    List Char → List Nat
  | [] => (if prev.any mode.isAlphanumeric then offset :: found else found).reverse
  | c :: cs =>
    let found := if prev.any (wordBreaks mode · c) then offset :: found else found
    wordEndsFrom mode found (some c) (offset + c.utf8Size) cs

/-- The offsets at which the words of a file name's stem end. -/
def wordEnds (mode : TextMode) (name : String) : List Nat :=
  match stem? name.toList with
  | some stem => wordEndsFrom mode [] none 0 stem
  | none => []

/-- The number of elements at the start of two lists that are the same. -/
def commonLength {α : Type} [BEq α] (xs ys : List α) : Nat :=
  ((xs.zip ys).takeWhile fun (x, y) => x == y).length

/-- The number of leading words of the name `current` that `name` begins with;
    `ends` are the ends of the words of `current`.  The last word of the stem
    counts only if `name` does not go on with it: `food.md` shares nothing with
    `foo.md`. -/
def sharedLeadingWords (mode : TextMode) (name current : String) (ends : List Nat) : Nat :=
  let common := commonLength (utf8 name) (utf8 current)
  let shared := (ends.takeWhile (· ≤ common)).length
  if shared = ends.length then
    match ends.getLast? with
    | none => shared
    | some stop =>
      let continues :=
        match ((⟨stop, name.utf8ByteSize⟩ : Span).slice name).toList with
        | c :: _ => mode.isAlphanumeric c && !mode.isUpper c
        | [] => false
      if continues then shared - 1 else shared
  else shared

end FuzzyPath
