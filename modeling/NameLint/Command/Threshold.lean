import NameLint.Report.Event

/-!
# The log threshold

Which events a run shows. The setting of the environment, where there is one, wins over the command
line; it is a level by name or number, and anything else shows nothing.
-/

namespace NameLint

set_option autoImplicit false

def Level.ofWord? (word : String) : Option Level :=
  match word.toLower with
  | "trace" | "5" => some .trace
  | "debug" | "4" => some .debug
  | "info" | "3" => some .info
  | "warn" | "2" => some .warn
  | "error" | "1" => some .error
  | _ => none

namespace Command

def threshold (setting : Option String) (verbose : Bool) : Option Level :=
  match setting with
  | none => some (if verbose then .debug else .warn)
  | some "" => some .error
  | some word => Level.ofWord? word

end Command

end NameLint
