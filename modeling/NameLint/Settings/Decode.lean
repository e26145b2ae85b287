import NameLint.Settings.Basic
import NameLint.Settings.Problem

/-!
# Decoding settings

Settings are written as a table `rules` of tables, one for each rule. In a rule's table `enabled`
is a truth value, and every other key is an option, whose value is a string. Keys are looked at in
sorted order and the first problem is the one that is told, with one exception: a wrong `enabled`
comes before the wrong options of its rule.
-/

namespace NameLint.Settings

open NameLint.Text NameLint.Toml

set_option autoImplicit false

def rulesKey : String := "rules"

def enabledKey : String := "enabled"

abbrev Entry := Key × Located Value

def wrongType {α : Type} (value : Located Value) (expected : Shape) : Except Problem α :=
  .error ⟨value.span, .wrongType value.content expected⟩

def decodeEnabled (enabled : Bool) (entry : Entry) : Except Problem Bool :=
  if entry.1.content = enabledKey then
    match entry.2.content with
    | .boolean flag => .ok flag
    | _ => wrongType entry.2 .boolean
  else .ok enabled

/-- Adds an option. An option that is no string is told of its whole table. -/
def decodeOption (table : Span) (options : Std.TreeMap String String) (entry : Entry) :
    Except Problem (Std.TreeMap String String) :=
  if entry.1.content = enabledKey then .ok options
  else
    match entry.2.content with
    | .string text => .ok (options.insert entry.1.content text)
    | _ => wrongType ⟨table, entry.2.content⟩ .string

def decodeRule (value : Located Value) : Except Problem RuleSettings :=
  match value.entries? with
  | none => wrongType value .ruleSettings
  | some entries => do
      let enabled ← entries.foldlM decodeEnabled true
      let options ← entries.foldlM (decodeOption value.span) {}
      return { enabled, options }

def decodeNamed (rules : Std.TreeMap String RuleSettings) (entry : Entry) :
    Except Problem (Std.TreeMap String RuleSettings) := do
  return rules.insert entry.1.content (← decodeRule entry.2)

def decodeRules (value : Located Value) : Except Problem (Std.TreeMap String RuleSettings) :=
  match value.entries? with
  | none => wrongType value .rules
  | some entries => entries.foldlM decodeNamed {}

def decodeEntry (settings : Settings) (entry : Entry) : Except Problem Settings := do
  if entry.1.content = rulesKey then return { settings with rules := ← decodeRules entry.2 }
  else .error ⟨entry.1.span, .unknownField entry.1.content⟩

def decode (document : Table) : Except Problem Settings :=
  document.foldlM decodeEntry {}

end NameLint.Settings
