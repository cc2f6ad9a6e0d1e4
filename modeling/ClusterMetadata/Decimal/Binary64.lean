/-! Binary floating-point numbers with a 53-bit mantissa, and the rounding of a decimal to them.

A finite number is an exact product of a mantissa and a power of two, so everything said about it
is exact integer arithmetic. `ofDecimal` rounds to the nearest such number, a tie to the even
mantissa, and beyond the largest one to infinity. -/
namespace ClusterMetadata.Decimal

/-- A number of the 64-bit binary format. A finite one is `mantissa * 2 ^ exponent`; the mantissa
is below `2 ^ 53`, the exponent is at least `-1074`, and one of the two is as large as it can be. -/
inductive Binary64 where
  | finite (negative : Bool) (mantissa : Nat) (exponent : Int)
  | infinite (negative : Bool)
  | nan
deriving DecidableEq, Repr, Inhabited

namespace Binary64

/-- The least mantissa with all 53 bits. -/
def leastFullMantissa : Nat := Nat.pow 2 52

def leastExponent : Int := -1074

def greatestExponent : Int := 971

def zero (negative : Bool) : Binary64 := .finite negative 0 leastExponent

def isZero : Binary64 → Bool
  | finite _ mantissa _ => mantissa == 0
  | _ => false

/-- `base ^ exponent` as a numerator and a denominator. -/
def power (base : Nat) : Int → Nat × Nat
  | .ofNat n => (Nat.pow base n, 1)
  | .negSucc n => (1, Nat.pow base (n + 1))

/-- The integer nearest to a quotient, a tie to the even one. -/
def roundHalfEven (num den : Nat) : Nat :=
  let whole := num / den
  let twice := 2 * (num % den)
  if den < twice ∨ (twice = den ∧ whole % 2 = 1) then whole + 1 else whole

def ofQuotient (negative : Bool) (num den : Nat) : Binary64 :=
  let scaled (e : Int) : Nat × Nat := (num * (power 2 (-e)).1, den * (power 2 (-e)).2)
  let estimate : Int := Int.ofNat num.log2 - Int.ofNat den.log2 - 52
  let short := (scaled estimate).1 < leastFullMantissa * (scaled estimate).2
  let normal := if short then estimate - 1 else estimate
  let exponent := max normal leastExponent
  let mantissa := roundHalfEven (scaled exponent).1 (scaled exponent).2
  let (mantissa, exponent) :=
    if mantissa = 2 * leastFullMantissa then (leastFullMantissa, exponent + 1)
    else (mantissa, exponent)
  if greatestExponent < exponent then .infinite negative else .finite negative mantissa exponent

/-- The number nearest to `digits * 10 ^ exponent`, where `digits` is below `10 ^ length`. Decimals
far outside the format's range are settled by their length alone. -/
def ofDecimal (negative : Bool) (digits length : Nat) (exponent : Int) : Binary64 :=
  if digits = 0 then zero negative
  else if exponent + length < -330 then zero negative
  else if 400 + Int.ofNat length < exponent + length then .infinite negative
  else
    let (up, down) := power 10 exponent
    ofQuotient negative (digits * up) down

def isInteger (x : Binary64) (n : Int) : Bool :=
  match x with
  | finite negative mantissa exponent =>
    let (up, down) := power 2 exponent
    let signed := if negative then -Int.ofNat (mantissa * up) else Int.ofNat (mantissa * up)
    signed == n * down
  | _ => false

/-- Whether the number is below the given integer. NaN is below nothing. -/
def isBelow (x : Binary64) (n : Int) : Bool :=
  match x with
  | finite negative mantissa exponent =>
    let (up, down) := power 2 exponent
    let signed := if negative then -Int.ofNat (mantissa * up) else Int.ofNat (mantissa * up)
    signed < n * down
  | infinite negative => negative
  | nan => false

/-- Equality of the numbers meant: the two zeros are one number, and NaN equals nothing. -/
def sameNumber : Binary64 → Binary64 → Bool
  | nan, _ => false
  | _, nan => false
  | x, y => (x.isZero && y.isZero) || x == y

end Binary64

end ClusterMetadata.Decimal
