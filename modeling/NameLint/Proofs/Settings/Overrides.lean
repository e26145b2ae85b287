import Mathlib.Data.List.Induction
import NameLint.Lint.Registry

/-!
# Overrides

Options are overridden one at a time and one after the other. Of each option the last override
counts, and an option without one stays as it was. No override turns a rule on or off: a table that
is made for an option leaves its rule on, as it is without a table, and the option `enabled` is no
switch. What the overrides make of the options decides how the rule of the registry judges.
-/

namespace NameLint.Settings

open NameLint.Naming

set_option autoImplicit false

structure Override where
  rule : String
  key : String
  value : String
deriving DecidableEq, Repr

def overridden (settings : Settings) (overrides : List Override) : Settings :=
  overrides.foldl (fun settings override =>
    settings.setOption override.rule override.key override.value) settings

/-- What the overrides make of an option; nothing if none of them is for it. -/
def lastValue? (overrides : List Override) (rule key : String) : Option String :=
  ((overrides.filter fun override => override.rule = rule ∧ override.key = key).getLast?).map
    (·.value)

section Steps

variable (settings : Settings) (rule key value name : String)

theorem isEnabled_eq : settings.isEnabled name = ((settings.rule? name).getD {}).enabled := by
  unfold isEnabled
  cases settings.rule? name with
  | none => rfl
  | some rule => rfl

theorem options_eq : settings.options name = ((settings.rule? name).getD {}).options := by
  unfold options
  cases settings.rule? name with
  | none => rfl
  | some rule => rfl

theorem rule?_setOption :
    (settings.setOption rule key value).rule? name =
      if rule = name then
        some ⟨settings.isEnabled rule, (settings.options rule).insert key value⟩
      else settings.rule? name := by
  simp only [setOption, rule?, Std.TreeMap.getElem?_insert, Std.LawfulEqCmp.compare_eq_iff_eq,
    isEnabled_eq, options_eq]

theorem isEnabled_setOption :
    (settings.setOption rule key value).isEnabled name = settings.isEnabled name := by
  rw [isEnabled_eq, rule?_setOption]
  split
  · next same => rw [Option.getD_some, same]
  · rw [isEnabled_eq]

theorem options_setOption (option : String) :
    ((settings.setOption rule key value).options name)[option]? =
      if rule = name ∧ key = option then some value else (settings.options name)[option]? := by
  rw [options_eq, rule?_setOption]
  by_cases same : rule = name
  · simp only [same, if_true, Option.getD_some, Std.TreeMap.getElem?_insert,
      Std.LawfulEqCmp.compare_eq_iff_eq, true_and]
  · simp only [same, if_false, false_and, options_eq]

theorem mem_ruleNames_setOption :
    name ∈ (settings.setOption rule key value).ruleNames ↔
      rule = name ∨ name ∈ settings.ruleNames := by
  rw [mem_ruleNames_iff, mem_ruleNames_iff, rule?_setOption]
  by_cases same : rule = name
  · simp [same]
  · simp [same]

end Steps

/-! A run of overrides is taken apart at its end, where the override stands that counts. -/

section Runs

variable (settings : Settings) (overrides : List Override)

theorem overridden_concat (last : Override) :
    settings.overridden (overrides ++ [last]) =
      (settings.overridden overrides).setOption last.rule last.key last.value := by
  rw [overridden, List.foldl_append]
  rfl

theorem lastValue?_concat (last : Override) (rule key : String) :
    lastValue? (overrides ++ [last]) rule key =
      if last.rule = rule ∧ last.key = key then some last.value
      else lastValue? overrides rule key := by
  unfold lastValue?
  rw [List.filter_append]
  by_cases meant : last.rule = rule ∧ last.key = key
  · rw [List.filter_cons_of_pos (by simpa using meant), List.filter_nil, List.getLast?_concat,
      if_pos meant]
    rfl
  · rw [List.filter_cons_of_neg (by simpa using meant), List.filter_nil, List.append_nil,
      if_neg meant]

theorem isEnabled_overridden (name : String) :
    (settings.overridden overrides).isEnabled name = settings.isEnabled name := by
  induction overrides using List.reverseRecOn with
  | nil => rfl
  | append_singleton earlier last ih => rw [overridden_concat, isEnabled_setOption, ih]

theorem options_overridden (rule key : String) :
    ((settings.overridden overrides).options rule)[key]? =
      (lastValue? overrides rule key).or (settings.options rule)[key]? := by
  induction overrides using List.reverseRecOn with
  | nil => rfl
  | append_singleton earlier last ih =>
      rw [overridden_concat, options_setOption, lastValue?_concat]
      split
      · rfl
      · exact ih

theorem mem_ruleNames_overridden (name : String) :
    name ∈ (settings.overridden overrides).ruleNames ↔
      name ∈ settings.ruleNames ∨ ∃ override ∈ overrides, override.rule = name := by
  induction overrides using List.reverseRecOn with
  | nil => simp [overridden]
  | append_singleton earlier last ih =>
      rw [overridden_concat, mem_ruleNames_setOption, ih, or_comm, or_assoc]
      simp only [List.mem_append, List.mem_singleton, or_and_right, exists_or, exists_eq_left]

end Runs

/-- However many options are overridden, and whatever their names are, every rule is on or off as
before, every option has the value of its last override or else the value that it had, and the named
rules are those of before and those overridden. So the camel case rule is built if it was on at the
start, and it leaves properties alone if, and only if, their option has become `never`. -/
theorem overrides_settle_options (settings : Settings) (overrides : List Override) :
    (∀ name, (settings.overridden overrides).isEnabled name = settings.isEnabled name) ∧
    (∀ rule key, ((settings.overridden overrides).options rule)[key]? =
      (lastValue? overrides rule key).or (settings.options rule)[key]?) ∧
    (∀ name, name ∈ (settings.overridden overrides).ruleNames ↔
      name ∈ settings.ruleNames ∨ ∃ override ∈ overrides, override.rule = name) ∧
    ∃ mode,
      Registry.rules (settings.overridden overrides) =
        (if settings.isEnabled ruleName then [camelCaseRule mode] else []) ∧
      (mode = .never ↔
        (lastValue? overrides ruleName Registry.propertiesOption).or
          (settings.options ruleName)[Registry.propertiesOption]? = some "never") := by
  refine ⟨isEnabled_overridden settings overrides, options_overridden settings overrides,
    mem_ruleNames_overridden settings overrides,
    Registry.propertiesMode ((settings.overridden overrides).options ruleName), ?_, ?_⟩
  · rw [Registry.rules, isEnabled_overridden]
  · rw [Registry.propertiesMode_eq_never_iff, options_overridden]

/-- An option with the name of the switch turns nothing on. -/
example :
    let settings : Settings :=
      ⟨({} : Std.TreeMap String RuleSettings).insert "camelcase" { enabled := false }⟩
    let after := settings.overridden
      [⟨"camelcase", "properties", "never"⟩, ⟨"camelcase", "enabled", "true"⟩,
       ⟨"camelcase", "properties", "always"⟩]
    after.isEnabled "camelcase" = false ∧
      (after.options "camelcase")["properties"]? = some "always" := by
  decide

end NameLint.Settings
