import ClusterMetadata.Decimal.Binary64

/-! The shortest decimal that reads back as a given binary number.

The decimals that round to a number fill an interval around it. For one digit, two digits and so
on up to seventeen, the two neighbours of the number on that decimal grid are tested against the
interval in exact integer arithmetic; the first grid with a hit gives the digits, of two hits the
nearer, of a tie the even one. -/
namespace ClusterMetadata.Decimal

structure Scaled where
  digits : Nat
  exponent : Int
deriving DecidableEq, Repr

/-- Compares `a * 10 ^ p` with `b * 2 ^ q`. -/
def compareScaled (a : Nat) (p : Int) (b : Nat) (q : Int) : Ordering :=
  let (tenUp, tenDown) := Binary64.power 10 p
  let (twoUp, twoDown) := Binary64.power 2 q
  compare (a * tenUp * twoDown) (b * twoUp * tenDown)

/-- The decimals that round to `mantissa * 2 ^ exponent`, as bounds in units of a quarter of
`2 ^ exponent`. Below a power of two the gap is half as wide, except at the least exponent. -/
def roundingBounds (mantissa : Nat) (exponent : Int) : Nat × Nat :=
  let narrow := mantissa = Binary64.leastFullMantissa ∧ Binary64.leastExponent < exponent
  (if narrow then 4 * mantissa - 1 else 4 * mantissa - 2, 4 * mantissa + 2)

/-- Whether a decimal rounds to `mantissa * 2 ^ exponent`; a bound itself does when the mantissa is
even, since ties go there. -/
def roundsTo (mantissa : Nat) (exponent : Int) (d : Scaled) : Bool :=
  let (low, high) := roundingBounds mantissa exponent
  let toLow := compareScaled d.digits d.exponent low (exponent - 2)
  let toHigh := compareScaled d.digits d.exponent high (exponent - 2)
  let even := mantissa % 2 == 0
  (toLow == .gt || (even && toLow == .eq)) && (toHigh == .lt || (even && toHigh == .eq))

/-- The power of ten at or below `mantissa * 2 ^ exponent`, for a positive mantissa. -/
def leadingPower (mantissa : Nat) (exponent : Int) : Int :=
  let binary := Int.ofNat mantissa.log2 + exponent
  let estimate := Int.fdiv (binary * 30103) 100000
  let reaches (t : Int) : Bool := compareScaled 1 t mantissa exponent != .gt
  if reaches (estimate + 1) then estimate + 1
  else if reaches estimate then estimate
  else estimate - 1

/-- The whole part of `mantissa * 2 ^ exponent / 10 ^ p`. -/
def gridBelow (mantissa : Nat) (exponent p : Int) : Nat :=
  let (tenUp, tenDown) := Binary64.power 10 p
  let (twoUp, twoDown) := Binary64.power 2 exponent
  mantissa * twoUp * tenDown / (twoDown * tenUp)

/-- The neighbour on the grid of `10 ^ p` that rounds to the number, if one does. -/
def onGrid? (mantissa : Nat) (exponent p : Int) : Option Scaled :=
  let below := gridBelow mantissa exponent p
  let low : Scaled := ⟨below, p⟩
  let high : Scaled := ⟨below + 1, p⟩
  match roundsTo mantissa exponent low, roundsTo mantissa exponent high with
  | true, false => some low
  | false, true => some high
  | false, false => none
  | true, true =>
    match compareScaled (2 * below + 1) p (2 * mantissa) exponent with
    | .gt => some low
    | .lt => some high
    | .eq => some (if below % 2 = 0 then low else high)

/-- Tries the grids with `length`, `length + 1`, … digits. -/
def searchGrids (mantissa : Nat) (exponent leading : Int) : Nat → Nat → Scaled
  | 0, length => ⟨gridBelow mantissa exponent (leading + 1 - length), leading + 1 - length⟩
  | fuel + 1, length =>
    match onGrid? mantissa exponent (leading + 1 - length) with
    | some found => found
    | none => searchGrids mantissa exponent leading fuel (length + 1)

/-- The fewest digits that read back as `mantissa * 2 ^ exponent`; seventeen always suffice. -/
def shortest (mantissa : Nat) (exponent : Int) : Scaled :=
  searchGrids mantissa exponent (leadingPower mantissa exponent) 17 1

end ClusterMetadata.Decimal
