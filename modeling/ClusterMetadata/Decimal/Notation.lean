import ClusterMetadata.Decimal.Shortest

/-! How a binary number is written.

The shortest digits are written positionally while the point falls within sixteen digits after the
first one or at most three zeros before it, and with an exponent otherwise. A whole number keeps
`.0`; an exponent has its sign and at least two digits. -/
namespace ClusterMetadata.Decimal

def digitChars (n : Nat) : List Char := Nat.toDigits 10 n

def dropTrailingZeros (ds : List Char) : List Char :=
  (ds.reverse.dropWhile (· == '0')).reverse

def zeros (n : Nat) : List Char := List.replicate n '0'

/-- Digits with the decimal point after the first `point` of them. -/
def positional (ds : List Char) (point : Int) : List Char :=
  match point with
  | .negSucc n => '0' :: '.' :: (zeros (n + 1) ++ ds)
  | .ofNat 0 => '0' :: '.' :: ds
  | .ofNat (n + 1) =>
    if ds.length ≤ n + 1 then ds ++ zeros (n + 1 - ds.length) ++ ['.', '0']
    else ds.take (n + 1) ++ '.' :: ds.drop (n + 1)

/-- Digits with a power of ten: one digit, the others after a point, then the exponent. -/
def exponential (ds : List Char) (exponent : Int) : List Char :=
  let magnitude := digitChars exponent.natAbs
  let padded := if magnitude.length < 2 then '0' :: magnitude else magnitude
  let mantissa := match ds with
    | [] => ['0']
    | [d] => [d]
    | d :: rest => d :: '.' :: rest
  mantissa ++ 'e' :: (if exponent < 0 then '-' else '+') :: padded

/-- A decimal in the shorter of the two notations, by the place of its point. -/
def Scaled.write (d : Scaled) : List Char :=
  let all := digitChars d.digits
  let point := Int.ofNat all.length + d.exponent
  let ds := dropTrailingZeros all
  if -4 < point ∧ point ≤ 16 then positional ds point else exponential ds (point - 1)

/-- The words for what is not a finite number. -/
structure Words where
  infinity : String
  nan : String

def Binary64.write (words : Words) : Binary64 → String
  | .nan => words.nan
  | .infinite negative => if negative then "-" ++ words.infinity else words.infinity
  | .finite negative mantissa exponent =>
    let unsigned := if mantissa = 0 then ['0', '.', '0'] else (shortest mantissa exponent).write
    String.ofList (if negative then '-' :: unsigned else unsigned)

end ClusterMetadata.Decimal
