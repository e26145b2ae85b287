import NameLint.Number.Digit

/-!
# Dates and times

A moment is a date, a time, or both, and both may carry an offset from universal time. Seconds may
be left out, and fractions are kept to nine places.
-/

namespace NameLint.Toml

open NameLint.Number

set_option autoImplicit false

structure Date where
  year : Nat
  month : Nat
  day : Nat
deriving DecidableEq, Repr

structure Time where
  hour : Nat
  minute : Nat
  second : Nat
  nanosecond : Nat
deriving DecidableEq, Repr

inductive ZoneOffset where
  | universal
  /-- How far the local time is ahead. -/
  | minutes (ahead : Int)
deriving DecidableEq, Repr

structure DateTime where
  date : Option Date := none
  time : Option Time := none
  zone : Option ZoneOffset := none
deriving DecidableEq, Repr

def isLeapYear (year : Nat) : Bool :=
  year % 4 == 0 && (year % 100 != 0 || year % 400 == 0)

def daysIn (year month : Nat) : Nat :=
  match month with
  | 2 => if isLeapYear year then 29 else 28
  | 4 | 6 | 9 | 11 => 30
  | _ => 31

def fixedDigits (count : Nat) (text : List Char) : Option (Nat × List Char) :=
  let digits := text.take count
  if digits.length = count ∧ digits.all isDigit then some (numberIn 10 digits, text.drop count)
  else none

def readDate (text : List Char) : Option (Date × List Char) := do
  match ← fixedDigits 4 text with
  | (year, '-' :: rest) =>
      match ← fixedDigits 2 rest with
      | (month, '-' :: rest) =>
          let (day, rest) ← fixedDigits 2 rest
          if 1 ≤ month ∧ month ≤ 12 ∧ 1 ≤ day ∧ day ≤ daysIn year month then
            some (⟨year, month, day⟩, rest)
          else none
      | _ => none
  | _ => none

def readFraction (text : List Char) : Option (Nat × List Char) :=
  let digits := text.takeWhile isDigit
  if digits.isEmpty then none
  else
    let kept := digits.take 9
    some (numberIn 10 kept * Nat.pow 10 (9 - kept.length), text.dropWhile isDigit)

def readSeconds (text : List Char) : Option ((Nat × Nat) × List Char) := do
  match text with
  | ':' :: rest =>
      match ← fixedDigits 2 rest with
      | (second, '.' :: rest) =>
          let (nanosecond, rest) ← readFraction rest
          some ((second, nanosecond), rest)
      | (second, rest) => some ((second, 0), rest)
  | rest => some ((0, 0), rest)

/-- The last second of a minute may be a leap second. -/
def readTime (text : List Char) : Option (Time × List Char) := do
  match ← fixedDigits 2 text with
  | (hour, ':' :: rest) =>
      let (minute, rest) ← fixedDigits 2 rest
      let ((second, nanosecond), rest) ← readSeconds rest
      if hour ≤ 23 ∧ minute ≤ 59 ∧ second ≤ 60 then
        some (⟨hour, minute, second, nanosecond⟩, rest)
      else none
  | _ => none

def readZoneMinutes (behind : Bool) (text : List Char) : Option ZoneOffset := do
  match ← fixedDigits 2 text with
  | (hour, ':' :: rest) =>
      match ← fixedDigits 2 rest with
      | (minute, []) =>
          let size : Int := Int.ofNat (60 * hour + minute)
          if hour ≤ 23 ∧ minute ≤ 59 then some (.minutes (if behind then -size else size))
          else none
      | _ => none
  | _ => none

def readZone (text : List Char) : Option ZoneOffset :=
  match text with
  | ['Z'] | ['z'] => some .universal
  | '+' :: rest => readZoneMinutes false rest
  | '-' :: rest => readZoneMinutes true rest
  | _ => none

namespace DateTime

/-- A date, a date with a time, or a time. -/
def ofText? (text : List Char) : Option DateTime :=
  match readDate text with
  | some (date, []) => some { date := some date }
  | some (date, separator :: rest) =>
      if separator = 'T' ∨ separator = 't' ∨ separator = ' ' then
        match readTime rest with
        | some (time, []) => some { date := some date, time := some time }
        | some (time, rest) =>
            (readZone rest).map fun zone =>
              { date := some date, time := some time, zone := some zone }
        | none => none
      else none
  | none =>
      match readTime text with
      | some (time, []) => some { time := some time }
      | _ => none

/-- A number with leading zeros up to a width. -/
def padded (width number : Nat) : String :=
  let digits := Nat.toDigits 10 number
  String.ofList (List.replicate (width - digits.length) '0' ++ digits)

def renderDate (date : Date) : String :=
  padded 4 date.year ++ "-" ++ padded 2 date.month ++ "-" ++ padded 2 date.day

def renderFraction (nanosecond : Nat) : String :=
  if nanosecond = 0 then ""
  else
    let digits := (padded 9 nanosecond).toList
    "." ++ String.ofList (digits.reverse.dropWhile (· == '0')).reverse

def renderTime (time : Time) : String :=
  padded 2 time.hour ++ ":" ++ padded 2 time.minute ++ ":" ++ padded 2 time.second ++
    renderFraction time.nanosecond

def renderZone : ZoneOffset → String
  | .universal => "Z"
  | .minutes ahead =>
      (if ahead < 0 then "-" else "+") ++ padded 2 (ahead.natAbs / 60) ++ ":" ++
        padded 2 (ahead.natAbs % 60)

def render (moment : DateTime) : String :=
  let date := (moment.date.map renderDate).getD ""
  let time := (moment.time.map renderTime).getD ""
  let separator := if moment.date.isSome && moment.time.isSome then "T" else ""
  date ++ separator ++ time ++ (moment.zone.map renderZone).getD ""

end DateTime

end NameLint.Toml
