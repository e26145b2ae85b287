import NameLint.Text.UppercaseTable

/-!
# Upper case

The full upper-case mapping: a character may become several, and no language or position in the
text changes the result. Title case plays no part.
-/

namespace NameLint.Text

set_option autoImplicit false

def CaseRun.covers (run : CaseRun) (code : Nat) : Bool :=
  run.first ≤ code && code ≤ run.last && (code - run.first) % run.step == 0

def uppercaseChar (c : Char) : List Char :=
  match uppercaseExpansions.lookup c.toNat with
  | some codes => codes.map Char.ofNat
  | none =>
      match uppercaseRuns.find? (·.covers c.toNat) with
      | some run => [Char.ofNat (run.image + (c.toNat - run.first))]
      | none => [c]

def uppercase (text : String) : String :=
  String.ofList (text.toList.flatMap uppercaseChar)

end NameLint.Text
