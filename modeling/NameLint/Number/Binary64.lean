/-!
# Binary floating point

Numbers with a mantissa of 53 bits, as exact values. A decimal is read as the nearest of them; of
two that are equally near, the one with an even mantissa is taken.
-/

namespace NameLint.Number

set_option autoImplicit false

/-- A finite number is `mantissa * 2 ^ exponent`. -/
inductive Binary64 where
  | nan
  | infinity (negative : Bool)
  | finite (negative : Bool) (mantissa : Nat) (exponent : Int)
deriving DecidableEq, Repr

namespace Binary64

def leastExponent : Int := -1074

def greatestExponent : Int := 971

def mantissaLimit : Nat := 9007199254740992

/-- A quotient rounded to the nearest natural number, ties to even. -/
def roundQuotient (numerator denominator : Nat) : Nat :=
  let whole := numerator / denominator
  let twice := 2 * (numerator % denominator)
  if twice < denominator then whole
  else if denominator < twice then whole + 1
  else whole + whole % 2

/-- The quotient divided by a power of two, as a quotient again. -/
def scaleDown (numerator denominator : Nat) (exponent : Int) : Nat × Nat :=
  match exponent with
  | .ofNat up => (numerator, denominator * Nat.pow 2 up)
  | .negSucc down => (numerator * Nat.pow 2 (down + 1), denominator)

/-- The nearest number to a positive quotient. -/
def ofQuotient (negative : Bool) (numerator denominator : Nat) : Binary64 :=
  let magnitude : Int := Int.ofNat numerator.log2 - Int.ofNat denominator.log2
  let low := max (magnitude - 53) leastExponent
  let (scaled, unit) := scaleDown numerator denominator low
  let exponent := if mantissaLimit ≤ scaled / unit then low + 1 else low
  let (scaled, unit) := scaleDown numerator denominator exponent
  let mantissa := roundQuotient scaled unit
  let (mantissa, exponent) :=
    if mantissa = mantissaLimit then (mantissa / 2, exponent + 1) else (mantissa, exponent)
  if greatestExponent < exponent then .infinity negative else .finite negative mantissa exponent

/-- The nearest number to `digits * 10 ^ power`. Decimals far out of range are settled by their
magnitude alone. -/
def ofDecimal (negative : Bool) (digits : Nat) (power : Int) : Binary64 :=
  let length : Int := (Nat.toDigits 10 digits).length
  if digits = 0 ∨ length + power < -330 then .finite negative 0 leastExponent
  else if 310 < length + power then .infinity negative
  else
    match power with
    | .ofNat up => ofQuotient negative (digits * Nat.pow 10 up) 1
    | .negSucc down => ofQuotient negative digits (Nat.pow 10 (down + 1))

end Binary64

end NameLint.Number
