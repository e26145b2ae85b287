import Std.Data.TreeMap

/-!
# Settings

Settings give each rule a switch and options. A rule without settings is on and has no options. The
tables are sorted by name.
-/

namespace NameLint

set_option autoImplicit false

structure RuleSettings where
  enabled : Bool := true
  options : Std.TreeMap String String := {}

structure Settings where
  rules : Std.TreeMap String RuleSettings := {}

namespace Settings

def rule? (settings : Settings) (name : String) : Option RuleSettings :=
  settings.rules[name]?

def ruleNames (settings : Settings) : List String :=
  settings.rules.keys

theorem mem_ruleNames_iff {settings : Settings} {name : String} :
    name ∈ settings.ruleNames ↔ (settings.rule? name).isSome := by
  rw [ruleNames, Std.TreeMap.mem_keys, Std.TreeMap.mem_iff_isSome_getElem?, rule?]

def isEnabled (settings : Settings) (name : String) : Bool :=
  match settings.rule? name with
  | some rule => rule.enabled
  | none => true

/-- The options of a rule; none for a rule without settings. -/
def options (settings : Settings) (name : String) : Std.TreeMap String String :=
  match settings.rule? name with
  | some rule => rule.options
  | none => {}

/-- Sets one option of a rule. The key `enabled` is an option like any other here. -/
def setOption (settings : Settings) (name key value : String) : Settings :=
  let rule := (settings.rule? name).getD {}
  ⟨settings.rules.insert name { rule with options := rule.options.insert key value }⟩

end Settings

end NameLint
