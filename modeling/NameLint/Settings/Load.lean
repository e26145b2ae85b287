import NameLint.Settings.Decode
import NameLint.Toml.Parser

/-!
# Loading settings

Settings come from the text of a file. The path of the file only serves to tell what went wrong.
-/

namespace NameLint.Settings

set_option autoImplicit false

inductive LoadError where
  | unreadable (path reason : String)
  /-- The text is no TOML document. -/
  | malformed (path : String)
  | misshapen (path text : String) (problem : Problem)

namespace LoadError

def cause : LoadError → String
  | .unreadable _ reason => reason
  | .malformed _ => "TOML parse error\n"
  | .misshapen _ text problem => problem.render text

def message (error : LoadError) : String :=
  match error with
  | .unreadable path _ => "failed to read " ++ path ++ ": " ++ error.cause
  | .malformed path | .misshapen path _ _ =>
      "invalid configuration in " ++ path ++ ": " ++ error.cause

end LoadError

def ofText (path text : String) : Except LoadError Settings :=
  match Toml.parse? text with
  | none => .error (.malformed path)
  | some document => (decode document).mapError (.misshapen path text)

end NameLint.Settings
