import NameLint.Text.Quoted

/-!
# Events

What a run logs on its way. An event has a level, and is shown when the run's threshold lets that
level through.
-/

namespace NameLint

set_option autoImplicit false

inductive Level where
  | trace
  | debug
  | info
  | warn
  | error
deriving DecidableEq, Repr

namespace Level

def rank : Level → Nat
  | .trace => 0
  | .debug => 1
  | .info => 2
  | .warn => 3
  | .error => 4

def render : Level → String
  | .trace => "TRACE"
  | .debug => "DEBUG"
  | .info => "INFO"
  | .warn => "WARN"
  | .error => "ERROR"

end Level

structure Event where
  level : Level
  message : String
  /-- Names and values, the values as they are shown. -/
  fields : List (String × String) := []
deriving DecidableEq, Repr

namespace Event

def render (event : Event) : String :=
  " ".intercalate
    (event.level.render :: event.message ::
      event.fields.map fun field => field.1 ++ "=" ++ field.2)

/-- Whether the event is at or above the threshold. Without a threshold nothing is shown. -/
def passes (threshold : Option Level) (event : Event) : Bool :=
  threshold.any fun least => least.rank ≤ event.level.rank

end Event

end NameLint
