import NameLint.Edit.Fix

/-!
# Diagnostics

A violation says what is wrong and what would help; a diagnostic ties it to a span of the source and
to the fix, if there is one.
-/

namespace NameLint

open NameLint.Text

set_option autoImplicit false

inductive FixAvailability where
  | sometimes
  | always
  | never
deriving DecidableEq, Repr

def FixAvailability.describe : FixAvailability → String
  | .sometimes => "Fix is sometimes available."
  | .always => "Fix is always available."
  | .never => "Fix is not available."

structure Violation where
  name : String
  body : String
  suggestion : Option String := none
  availability : FixAvailability := .never
deriving DecidableEq, Repr

structure Diagnostic where
  violation : Violation
  span : Span
  fix : Option Fix := none
deriving DecidableEq, Repr

namespace Diagnostic

def withFix (diagnostic : Diagnostic) (fix : Fix) : Diagnostic :=
  { diagnostic with fix := some fix }

/-- Without a new fix the present one stays. -/
def withOptionalFix (diagnostic : Diagnostic) (fix : Option Fix) : Diagnostic :=
  { diagnostic with fix := fix <|> diagnostic.fix }

end Diagnostic

end NameLint
