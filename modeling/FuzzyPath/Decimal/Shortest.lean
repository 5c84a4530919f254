/-
  FuzzyPath — the shortest decimal of a floating-point number.

  Of all decimals that read back as the number those with the fewest digits
  are considered, and of these the nearest is taken; of two equally near ones,
  that with the even last digit.

  * `Binary.ofBits` decodes a 64-bit floating-point number into a product of
    an integer and a power of two;
  * `Binary.shortest` finds the decimal, as a product of an integer and a power
    of ten;
  * `Decimal.text` writes it, with a point and at least one digit after it, or
    with an exponent.
-/
namespace FuzzyPath

/-! ## Binary numbers -/

/-- The absolute value `mantissa · 2 ^ exponent`. -/
structure Binary where
  mantissa : Nat
  exponent : Int
  /-- Whether the next smaller number is only half as far away as the next
      larger one. -/
  narrowBelow : Bool
  deriving DecidableEq, Repr

/-- The absolute value of the number with the given bits, which has to be
    finite. -/
def Binary.ofBits (bits : UInt64) : Binary :=
  let fraction := (bits &&& 0xFFFFFFFFFFFFF).toNat
  let exponent := ((bits >>> 52) &&& 0x7FF).toNat
  if exponent = 0 then ⟨fraction, -1074, false⟩
  else ⟨fraction + 0x10000000000000, exponent - 1075, fraction == 0 && 1 < exponent⟩

/-- Whether the number with the given bits has a minus sign. -/
def signBit (bits : UInt64) : Bool := 0x8000000000000000 ≤ bits

/-! ## The search for digits -/

/-- The absolute value `digits · 10 ^ exponent`. -/
structure Decimal where
  digits : Nat
  exponent : Int
  deriving DecidableEq, Repr

/-- Compares `a · 2 ^ p` with `b · 10 ^ q`. -/
def compareScaled (a : Nat) (p : Int) (b : Nat) (q : Int) : Ordering :=
  compare (a * Nat.pow 2 p.toNat * Nat.pow 10 (-q).toNat)
    (b * Nat.pow 10 q.toNat * Nat.pow 2 (-p).toNat)

/-- `a · 2 ^ p` in units of `10 ^ q`, rounded down. -/
def floorScaled (a : Nat) (p q : Int) : Nat :=
  (a * Nat.pow 2 p.toNat * Nat.pow 10 (-q).toNat) /
    (Nat.pow 10 q.toNat * Nat.pow 2 (-p).toNat)

namespace Binary

/-- Whether the decimal `digits · 10 ^ k` reads back as the number: it lies
    between the midpoints to its neighbours.  A midpoint itself belongs to the
    number with the even mantissa. -/
def readsBack (x : Binary) (digits : Nat) (k : Int) : Bool :=
  let low := 4 * x.mantissa - if x.narrowBelow then 1 else 2
  let high := 4 * x.mantissa + 2
  let fromLow := compareScaled low (x.exponent - 2) digits k
  let toHigh := compareScaled high (x.exponent - 2) digits k
  let even := x.mantissa % 2 == 0
  (fromLow == .lt || (even && fromLow == .eq)) && (toHigh == .gt || (even && toHigh == .eq))

/-- The multiple of `10 ^ k` that reads back as the number, if there is one; the
    better one of two. -/
def onGrid? (x : Binary) (k : Int) : Option Nat :=
  let below := floorScaled x.mantissa x.exponent k
  match x.readsBack below k, x.readsBack (below + 1) k with
  | true, true =>
    -- the number against the middle between the two multiples
    match compareScaled (2 * x.mantissa) x.exponent (2 * below + 1) k with
    | .lt => some below
    | .gt => some (below + 1)
    | .eq => some (if below % 2 = 0 then below else below + 1)
  | true, false => some below
  | false, true => some (below + 1)
  | false, false => none

/-- The first hit among the grids of `10 ^ k` and the `steps` next finer
    ones. -/
def searchFrom (x : Binary) (k : Int) : Nat → Decimal
  | 0 => ⟨floorScaled x.mantissa x.exponent k, k⟩
  | steps + 1 =>
    match x.onGrid? k with
    | some digits => ⟨digits, k⟩
    | none => searchFrom x (k - 1) steps

/-- The shortest decimal of a number; no such number is above `10 ^ 309`, and
    the finest grid needed is that of `10 ^ (-324)`. -/
def shortest (x : Binary) : Decimal :=
  if x.mantissa = 0 then ⟨0, 0⟩ else searchFrom x 309 640

end Binary

/-! ## The text -/

/-- How a decimal is written: with a point if the exponent of its first digit
    is at least −5 and less than 16, and as a power of ten otherwise. -/
def Decimal.text (d : Decimal) : String :=
  let digits := (Nat.repr d.digits).toList
  let first : Int := d.exponent + digits.length - 1
  if d.digits = 0 then "0.0"
  else if 0 ≤ d.exponent ∧ first < 16 then
    String.ofList (digits ++ List.replicate d.exponent.toNat '0') ++ ".0"
  else if 0 ≤ first ∧ first < 16 then
    String.ofList (digits.take (first + 1).toNat) ++ "." ++
      String.ofList (digits.drop (first + 1).toNat)
  else if -5 ≤ first ∧ first < 0 then
    "0." ++ String.ofList (List.replicate (-first - 1).toNat '0' ++ digits)
  else
    let lead := match digits with
      | [c] => String.ofList [c]
      | c :: rest => String.ofList (c :: '.' :: rest)
      | [] => ""
    lead ++ (if first < 0 then "e-" else "e+") ++ Nat.repr first.natAbs

/-- The text of the floating-point number with the given bits, which has to be
    finite. -/
def floatText (bits : UInt64) : String :=
  (if signBit bits then "-" else "") ++ (Binary.ofBits bits).shortest.text

end FuzzyPath
