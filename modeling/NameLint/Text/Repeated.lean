/-!
# Repeated characters

Runs of one character, as indentation and marks are made of.
-/

namespace NameLint.Text

set_option autoImplicit false

def repeated (c : Char) (count : Nat) : String :=
  String.ofList (List.replicate count c)

def indentation (depth : Nat) : String :=
  repeated ' ' (2 * depth)

end NameLint.Text
