import NameLint.Toml.Value

/-!
# Numbers, dates and truth values

The values that are written as one word. Digits may be grouped by single underscores. Integers have
64 bits with a sign; a decimal that is too large for a number is refused.
-/

namespace NameLint.Toml

open NameLint.Number

set_option autoImplicit false

def digitsFrom (isDigit : Char → Bool) (expected : Bool) : List Char → Option (List Char)
  | [] => if expected then none else some []
  | c :: rest =>
      if isDigit c then (digitsFrom isDigit false rest).map (c :: ·)
      else if c = '_' ∧ !expected then digitsFrom isDigit true rest
      else none

/-- The digits of a run that has no underscores at its ends and no two in a row. -/
def digits? (isDigit : Char → Bool) (run : List Char) : Option (List Char) :=
  digitsFrom isDigit true run

/-- The digits of a decimal run without needless zeros in front. -/
def wholeDigits? (run : List Char) : Option (List Char) :=
  match digits? isDigit run with
  | some ('0' :: _ :: _) => none
  | result => result

def splitSign (word : List Char) : Bool × List Char :=
  match word with
  | '-' :: rest => (true, rest)
  | '+' :: rest => (false, rest)
  | rest => (false, rest)

def inRange (number : Int) : Option Int :=
  if -9223372036854775808 ≤ number ∧ number ≤ 9223372036854775807 then some number else none

def decimalInteger? (word : List Char) : Option Int := do
  let (negative, run) := splitSign word
  let number := Int.ofNat (numberIn 10 (← wholeDigits? run))
  inRange (if negative then -number else number)

def basedInteger? (base : Nat) (run : List Char) : Option Int := do
  inRange (Int.ofNat (numberIn base (← digits? (isDigitOf base) run)))

def integer? (word : List Char) : Option Int :=
  match word with
  | '0' :: 'x' :: run => basedInteger? 16 run
  | '0' :: 'o' :: run => basedInteger? 8 run
  | '0' :: 'b' :: run => basedInteger? 2 run
  | _ => decimalInteger? word

def isRunChar (c : Char) : Bool :=
  isDigit c || c == '_'

/-- The power of ten behind an exponent mark; zero without one. -/
def exponent? (text : List Char) : Option Int :=
  match text with
  | [] => some 0
  | mark :: rest => do
      if mark = 'e' ∨ mark = 'E' then
        let (negative, run) := splitSign rest
        let power := Int.ofNat (numberIn 10 (← digits? isDigit run))
        return if negative then -power else power
      else none

/-- The digits behind a point, and what follows them; no digits without a point. -/
def fraction? (text : List Char) : Option (List Char × List Char) :=
  match text with
  | '.' :: rest =>
      (digits? isDigit (rest.takeWhile isRunChar)).map (·, rest.dropWhile isRunChar)
  | rest => some ([], rest)

/-- A number with a point or an exponent. -/
def decimalFloat? (negative : Bool) (text : List Char) : Option Binary64 := do
  let whole ← wholeDigits? (text.takeWhile isRunChar)
  let rest := text.dropWhile isRunChar
  if rest.isEmpty then none
  let (fraction, rest) ← fraction? rest
  let power ← exponent? rest
  match Binary64.ofDecimal negative (numberIn 10 (whole ++ fraction)) (power - fraction.length) with
  | .infinity _ => none
  | number => some number

def float? (word : List Char) : Option Binary64 :=
  let (negative, text) := splitSign word
  if text = ['i', 'n', 'f'] then some (.infinity negative)
  else if text = ['n', 'a', 'n'] then some .nan
  else decimalFloat? negative text

def scalar? (word : List Char) : Option Value :=
  if word = ['t', 'r', 'u', 'e'] then some (.boolean true)
  else if word = ['f', 'a', 'l', 's', 'e'] then some (.boolean false)
  else
    match integer? word with
    | some number => some (.integer number)
    | none =>
        match float? word with
        | some number => some (.float number)
        | none => (DateTime.ofText? word).map .dateTime

def isWordChar (c : Char) : Bool :=
  c.isAlphanum || c == '_' || c == '+' || c == '-' || c == '.' || c == ':'

/-- The word at the start of a text. A date takes in the time that follows it after one space. -/
def wordAt (text : List Char) : List Char :=
  let word := text.takeWhile isWordChar
  match readDate word, text.drop word.length with
  | some (_, []), ' ' :: rest =>
      if rest.head?.any isDigit then word ++ ' ' :: rest.takeWhile isWordChar else word
  | _, _ => word

end NameLint.Toml
