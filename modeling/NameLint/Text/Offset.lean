import NameLint.Fault

/-!
# Offsets

An offset counts the bytes of UTF-8 text before a point. Texts of `limit` bytes and more are not
supported, so arithmetic that reaches the limit is refused instead of being carried out.
-/

namespace NameLint.Text

set_option autoImplicit false

namespace Offset

def limit : Nat := 4294967296

def ofNat? (number : Nat) : Option Nat :=
  if number < limit then some number else none

def endOf (text : String) : Nat :=
  text.utf8ByteSize

def sum? (left right : Nat) : Option Nat :=
  ofNat? (left + right)

def difference? (left right : Nat) : Option Nat :=
  if right ≤ left then some (left - right) else none

def sum (left right : Nat) : Except Fault Nat :=
  match sum? left right with
  | some total => .ok total
  | none => .error .offsetOverflow

def difference (left right : Nat) : Except Fault Nat :=
  match difference? left right with
  | some rest => .ok rest
  | none => .error .offsetUnderflow

end Offset

end NameLint.Text
