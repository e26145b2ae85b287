import NameLint.Lint.Rule
import NameLint.Naming.CamelCase
import NameLint.Naming.Role

/-!
# The camel case rule

A name with an inner underscore is reported once, whatever the number of its roles, if one of them
asks for camel case. The fix renames this occurrence only, so the user has to ask for it.
-/

namespace NameLint.Naming

set_option autoImplicit false

/-- Whether names of properties have to be in camel case too. -/
inductive PropertiesMode where
  | always
  | never
deriving DecidableEq, Repr

def PropertiesMode.ofOption (value : String) : PropertiesMode :=
  if value == "never" then .never else .always

def ruleName : String := "camelcase"

def nameKinds : List String :=
  ["identifier", "property_identifier", "shorthand_property_identifier",
   "shorthand_property_identifier_pattern", "statement_identifier"]

def notInCamelCase (name replacement : String) : Violation where
  name := "CamelcaseViolation"
  body := "Identifier '" ++ name ++ "' is not in camel case."
  suggestion := some ("Rename to `" ++ replacement ++ "`")
  availability := .always

/-- Whether the role asks for camel case. A renamed import is spelt by its module, so only the name
that the import binds is judged. -/
def PropertiesMode.judges (mode : PropertiesMode) (name : String) : Role → Bool
  | .memberAccess isObject => mode == .always && isObject
  | .assignmentTarget => mode == .always
  | .propertyEntry passedAsArgument => mode == .always && !passedAsArgument
  | .patternShorthand => false
  | .importBinding localName => localName == some name
  | .callPosition => false
  | .plainReference => true

/-- The rename of a name at a span; none if the name would stay as it is. -/
def rename? (name : String) (span : Text.Span) : Except Fault (Option Fix) :=
  if camelCase name = name then .ok none
  else return some (Fix.ofEdit .optIn (← Edit.replacement (camelCase name) span))

/-- The diagnostic for the name at a place, if it has to be reported. -/
def classify (mode : PropertiesMode) (source : String) (place : Place) :
    Except Fault (Option Diagnostic) := do
  let name ← place.text source
  let roles ← roles source place
  if isUnderscored (splitMarkers name).core && roles.any (mode.judges name) then
    let violation := notInCamelCase name (camelCase name)
    return some { violation, span := place.span, fix := ← rename? name place.span }
  else return none

def checkName (mode : PropertiesMode) (source : String) (place : Place) (reported : Reported) :
    Except Fault (List Diagnostic × Reported) :=
  if nameKinds.contains place.kind then do
    match ← classify mode source place with
    | none => return ([], reported)
    | some diagnostic =>
        match reported.mark ruleName place with
        | (true, reported) => return ([diagnostic], reported)
        | (false, reported) => return ([], reported)
  else .ok ([], reported)

def camelCaseRule (mode : PropertiesMode) : Rule where
  name := ruleName
  kinds := nameKinds
  check := checkName mode

end NameLint.Naming
