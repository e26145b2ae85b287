import NameLint.Number.Binary64

/-!
# The shortest decimal

A number is shown by the fewest digits that still read back as the same number, and by the nearest
of those; of two that are equally near, by the greater. Digits are written out in place, with a
point and at least one digit behind it.
-/

namespace NameLint.Number

set_option autoImplicit false

structure Decimal where
  digits : Nat
  power : Int
deriving DecidableEq, Repr

/-- `left * 10 ^ power` and `right * 2 ^ exponent` over a common denominator. -/
def alignScales (left : Nat) (power : Int) (right : Nat) (exponent : Int) : Nat × Nat :=
  (left * Nat.pow 10 power.toNat * Nat.pow 2 (-exponent).toNat,
    right * Nat.pow 2 exponent.toNat * Nat.pow 10 (-power).toNat)

def readsBack (mantissa : Nat) (exponent : Int) (decimal : Decimal) : Bool :=
  let below := if mantissa = Binary64.mantissaLimit / 2 ∧ Binary64.leastExponent < exponent
    then 1 else 2
  let (value, low) :=
    alignScales decimal.digits decimal.power (4 * mantissa - below) (exponent - 2)
  let (value', high) :=
    alignScales decimal.digits decimal.power (4 * mantissa + 2) (exponent - 2)
  if mantissa % 2 = 0 then low ≤ value && value' ≤ high else low < value && value' < high

def powerAbove (mantissa : Nat) (exponent : Int) : Int :=
  let isAbove (power : Int) : Bool :=
    let (value, number) := alignScales 1 power mantissa exponent
    number < value
  let candidates := (List.range 640).map fun step : Nat => Int.ofNat step - 325
  (candidates.find? isAbove).getD 310

/-- The neighbours of `mantissa * 2 ^ exponent` among the multiples of a power of ten, the nearer
one first. -/
def neighbours (mantissa : Nat) (exponent power : Int) : List Decimal :=
  let (unit, number) := alignScales 1 power mantissa exponent
  let below := number / unit
  if 2 * (number % unit) < unit then [⟨below, power⟩, ⟨below + 1, power⟩]
  else [⟨below + 1, power⟩, ⟨below, power⟩]

/-- Seventeen digits are enough for every number. -/
def shortest (mantissa : Nat) (exponent : Int) : Decimal :=
  let above := powerAbove mantissa exponent
  let powers := (List.range 17).map fun count : Nat => above - 1 - Int.ofNat count
  let found := powers.findSome? fun power =>
    (neighbours mantissa exponent power).find? (readsBack mantissa exponent)
  found.getD ⟨0, 0⟩

def dropTrailingZeros (digits : List Char) : List Char :=
  (digits.reverse.dropWhile (· == '0')).reverse

def Decimal.positional (decimal : Decimal) : String :=
  let digits := Nat.toDigits 10 decimal.digits
  match decimal.power with
  | .ofNat zeros => String.ofList (digits ++ List.replicate zeros '0') ++ ".0"
  | .negSucc places =>
      let padded := List.replicate (places + 2 - digits.length) '0' ++ digits
      let split := padded.length - (places + 1)
      let fraction := dropTrailingZeros (padded.drop split)
      String.ofList (padded.take split) ++ "." ++
        String.ofList (if fraction.isEmpty then ['0'] else fraction)

def signText (negative : Bool) : String :=
  if negative then "-" else ""

def Binary64.render : Binary64 → String
  | .nan => "NaN"
  | .infinity negative => signText negative ++ "inf"
  | .finite negative 0 _ => signText negative ++ "0.0"
  | .finite negative mantissa exponent =>
      signText negative ++ (shortest mantissa exponent).positional

end NameLint.Number
