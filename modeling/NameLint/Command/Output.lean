/-!
# Output

What a command leaves behind when it ends.
-/

namespace NameLint.Command

set_option autoImplicit false

structure Output where
  exit : Nat
  stdout : String := ""
  stderr : String := ""
deriving DecidableEq, Repr

def joinLines (lines : List String) : String :=
  String.join (lines.map (· ++ "\n"))

end NameLint.Command
