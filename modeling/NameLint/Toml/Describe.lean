import NameLint.Number.Shortest
import NameLint.Text.Quoted
import NameLint.Toml.Value

/-!
# Naming values

What a message calls a value that is not of the expected kind. Dates and times are taken for the
tables that they unfold to.
-/

namespace NameLint.Toml

open NameLint.Text

set_option autoImplicit false

namespace Value

def describe : Value → String
  | .string text => "string " ++ quoted text
  | .integer number => "integer `" ++ toString number ++ "`"
  | .float number => "floating point `" ++ number.render ++ "`"
  | .boolean flag => "boolean `" ++ (if flag then "true" else "false") ++ "`"
  | .dateTime _ => "map"
  | .array _ _ => "sequence"
  | .table _ _ => "map"

/-- The key under which a date or time unfolds to its text. -/
def momentKey : String := "$__toml_private_datetime"

end Value

/-- The entries of a value that is a table or unfolds to one. -/
def Located.entries? (value : Located Value) : Option Table :=
  match value.content with
  | .table _ entries => some entries
  | .dateTime moment =>
      some [(⟨value.span, Value.momentKey⟩, ⟨value.span, .string moment.render⟩)]
  | _ => none

end NameLint.Toml
