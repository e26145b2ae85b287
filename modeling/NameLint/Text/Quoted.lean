import NameLint.Text.HiddenTable

/-!
# Quoted text

Quoted text shows a string between double quotes so that every character of it can be told: quotes
and backslashes are escaped, and characters that would not show are given by their numbers.
-/

namespace NameLint.Text

set_option autoImplicit false

def isHidden (c : Char) : Bool :=
  hiddenRanges.any fun range => range.1 ≤ c.toNat && c.toNat ≤ range.2

def hexDigits (number : Nat) : List Char :=
  Nat.toDigits 16 number

def quotedChar (c : Char) : List Char :=
  match c with
  | '\x00' => ['\\', '0']
  | '\t' => ['\\', 't']
  | '\r' => ['\\', 'r']
  | '\n' => ['\\', 'n']
  | '\\' => ['\\', '\\']
  | '"' => ['\\', '"']
  | c =>
      if ' ' ≤ c && c ≤ '~' then [c]
      else if isHidden c then ['\\', 'u', '\x7b'] ++ hexDigits c.toNat ++ ['\x7d']
      else [c]

def quoted (text : String) : String :=
  "\"" ++ String.ofList (text.toList.flatMap quotedChar) ++ "\""

end NameLint.Text
