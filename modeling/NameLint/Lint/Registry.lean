import NameLint.Lint.Linter
import NameLint.Naming.Rule
import NameLint.Report.Event
import NameLint.Settings.Basic

/-!
# The registry

The rules that settings can name, and the linter that settings ask for. Settings for a rule that is
not known are ignored with a warning.
-/

namespace NameLint

open NameLint.Naming

set_option autoImplicit false

namespace Registry

def knownRules : List String := [ruleName]

def propertiesOption : String := "properties"

def propertiesMode (options : Std.TreeMap String String) : PropertiesMode :=
  match options[propertiesOption]? with
  | some value => .ofOption value
  | none => .always

theorem propertiesMode_eq_never_iff {options : Std.TreeMap String String} :
    propertiesMode options = .never ↔ options[propertiesOption]? = some "never" := by
  unfold propertiesMode
  cases options[propertiesOption]? with
  | none => simp
  | some value => simp [PropertiesMode.ofOption]

def rules (settings : Settings) : List Rule :=
  if settings.isEnabled ruleName then [camelCaseRule (propertiesMode (settings.options ruleName))]
  else []

def events (settings : Settings) : List Event :=
  let unknown := settings.ruleNames.filter (!knownRules.contains ·)
  let ignored := unknown.map fun name =>
    { level := .warn, message := "unknown rule in configuration, ignoring",
      fields := [("rule", Text.quoted name)] }
  if settings.isEnabled ruleName then ignored
  else
    ignored ++
      [{ level := .debug, message := "rule disabled", fields := [("rule", Text.quoted ruleName)] }]

end Registry

def Linter.ofSettings (settings : Settings) : Linter :=
  ⟨Registry.rules settings⟩

end NameLint
