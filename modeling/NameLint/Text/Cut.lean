import NameLint.Text.Offset

/-!
# Cutting text

A cut takes what lies between two byte offsets. Both have to lie inside the text, in order, and
between characters.
-/

namespace NameLint.Text

set_option autoImplicit false

/-- How many characters fill exactly the first `bytes` bytes, counted on from `count`. -/
def charactersIn (bytes : Nat) (count : Nat) : List Char → Option Nat
  | [] => if bytes = 0 then some count else none
  | c :: rest =>
      if bytes = 0 then some count
      else if c.utf8Size ≤ bytes then charactersIn (bytes - c.utf8Size) (count + 1) rest
      else none

/-- The characters of the first `bytes` bytes, and the others. -/
def splitBytes (bytes : Nat) (text : List Char) : Option (List Char × List Char) :=
  (charactersIn bytes 0 text).map text.splitAt

def cut (text : String) (start stop : Nat) : Except Fault String :=
  if start ≤ stop then
    match splitBytes start text.toList with
    | some (_, rest) =>
        match splitBytes (stop - start) rest with
        | some (piece, _) => .ok (String.ofList piece)
        | none => .error .misplacedCut
    | none => .error .misplacedCut
  else .error .misplacedCut

def cutFrom (text : String) (start : Nat) : Except Fault String :=
  cut text start (Offset.endOf text)

end NameLint.Text
