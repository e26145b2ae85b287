import NameLint.Number.Digit
import NameLint.Toml.Input

/-!
# Strings

A string stands between quotes, one or three on each side. Between double quotes a backslash
starts an escape; between single quotes all characters stand for themselves. Three quotes let a
string run over several lines: a line end right behind the opening quotes does not count, and a
backslash at the end of a line takes away the line end and the blanks that follow.
-/

namespace NameLint.Toml

open NameLint.Number

set_option autoImplicit false

/-- Splits at the closing quote. The character after a backslash is part of the string. -/
def splitSingle (quote : Char) (escapes : Bool) (taken : List Char) :
    List Char → Option (List Char × List Char)
  | [] => none
  | c :: rest =>
      if c = quote then some (taken.reverse, rest)
      else if escapes && c == '\\' then
        match rest with
        | [] => none
        | escaped :: rest => splitSingle quote escapes (escaped :: c :: taken) rest
      else splitSingle quote escapes (c :: taken) rest

/-- Splits at three closing quotes. Up to two more quotes in front of them belong to the string;
`quotes` counts those just passed. -/
def splitTriple (quote : Char) (escapes : Bool) (quotes : Nat) (taken : List Char) :
    List Char → Option (List Char × List Char)
  | [] => if 3 ≤ quotes then some (taken.reverse ++ List.replicate (quotes - 3) quote, []) else none
  | c :: rest =>
      if c = quote then
        if quotes = 4 then some (taken.reverse ++ [quote, quote], rest)
        else splitTriple quote escapes (quotes + 1) taken rest
      else if 3 ≤ quotes then
        some (taken.reverse ++ List.replicate (quotes - 3) quote, c :: rest)
      else
        let taken := List.replicate quotes quote ++ taken
        if escapes && c == '\\' then
          match rest with
          | [] => none
          | escaped :: rest => splitTriple quote escapes 0 (escaped :: c :: taken) rest
        else splitTriple quote escapes 0 (c :: taken) rest

def areAllowed (lines : Bool) : List Char → Bool
  | [] => true
  | c :: rest =>
      (Input.isPlain c ||
        (lines && (c == '\n' || (c == '\r' && rest.head? == some '\n')))) &&
      areAllowed lines rest

/-- The character with a number in hexadecimal digits. Surrogates are no characters. -/
def charOfHex? (digits : List Char) : Option Char :=
  let code := numberIn 16 digits
  if digits.all (isDigitOf 16) ∧ code.isValidChar then some (Char.ofNat code) else none

def simpleEscape? (c : Char) : Option Char :=
  match c with
  | 'b' => some '\x08'
  | 't' => some '\t'
  | 'n' => some '\n'
  | 'f' => some '\x0c'
  | 'r' => some '\r'
  | 'e' => some '\x1b'
  | '"' => some '"'
  | '\\' => some '\\'
  | _ => none

/-- Where resolving escapes stands: in the text, behind a backslash that has to end its line, or
behind that line end. -/
inductive EscapeState where
  | text
  | seekingLineEnd
  | trimming
deriving DecidableEq, Repr

/-- The text with its escapes resolved. -/
def unescape (lines : Bool) (state : EscapeState) : List Char → Option (List Char)
  | [] => if state = .seekingLineEnd then none else some []
  | c :: rest =>
      if state = .seekingLineEnd then
        if c = '\n' then unescape lines .trimming rest
        else if Input.isBlank c ∨ c = '\r' then unescape lines .seekingLineEnd rest
        else none
      else if state = .trimming ∧ (Input.isBlank c ∨ c = '\r' ∨ c = '\n') then
        unescape lines .trimming rest
      else if c = '\\' then
        match rest with
        | 'x' :: a :: b :: rest => do
            return (← charOfHex? [a, b]) :: (← unescape lines .text rest)
        | 'u' :: a :: b :: c :: d :: rest => do
            return (← charOfHex? [a, b, c, d]) :: (← unescape lines .text rest)
        | 'U' :: a :: b :: c :: d :: e :: f :: g :: h :: rest => do
            return (← charOfHex? [a, b, c, d, e, f, g, h]) :: (← unescape lines .text rest)
        | escaped :: rest =>
            match simpleEscape? escaped with
            | some c => do return c :: (← unescape lines .text rest)
            | none =>
                if !lines then none
                else if escaped = '\n' then unescape lines .trimming rest
                else if Input.isBlank escaped ∨ escaped = '\r' then
                  unescape lines .seekingLineEnd rest
                else none
        | [] => none
      else do return c :: (← unescape lines .text rest)

def dropFirstLineEnd : List Char → List Char
  | '\n' :: rest => rest
  | '\r' :: '\n' :: rest => rest
  | text => text

/-- The content of a string, given what stands between its quotes. -/
def contentOf (escapes lines : Bool) (raw : List Char) : Option String :=
  let raw := if lines then dropFirstLineEnd raw else raw
  if areAllowed lines raw then
    if escapes then (unescape lines .text raw).map String.ofList else some (String.ofList raw)
  else none

def readSingle (quote : Char) (input : Input) : Option (String × Input) := do
  let (raw, rest) ← splitSingle quote (quote == '"') [] input.rest
  return (← contentOf (quote == '"') false raw, input.behind (quote :: raw) rest)

def readTriple (quote : Char) (input : Input) : Option (String × Input) := do
  let (raw, rest) ← splitTriple quote (quote == '"') 0 [] input.rest
  return (← contentOf (quote == '"') true raw,
    input.behind (quote :: quote :: quote :: raw) rest)

def readString (quote : Char) (input : Input) : Option (String × Input) :=
  match input.rest with
  | first :: second :: third :: _ =>
      if first = quote ∧ second = quote ∧ third = quote then readTriple quote input.tail.tail.tail
      else readSingle quote input.tail
  | _ => readSingle quote input.tail

end NameLint.Toml
