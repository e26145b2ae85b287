import NameLint.Proofs.Fault
import NameLint.Proofs.Toml.Keys
import NameLint.Settings.Load

/-!
# The format of settings

A document has the format of settings if it holds nothing but a table of rules, each of them a table
whose `enabled` is a truth value and whose other values are texts. Decoding takes exactly the
documents of this format, and the settings say what the document says. A date or time in place of a
rule unfolds to a table, which is why documents with one are left aside.
-/

namespace NameLint.Settings

open NameLint.Text NameLint.Toml

set_option autoImplicit false

/-- A rule is a table. In it `enabled` is a truth value, and all else is text. -/
def IsRule (value : Value) : Prop :=
  ∃ kind table, value = .table kind table ∧ ∀ key option, Table.Writes table key option →
    if key = enabledKey then ∃ flag, option = .boolean flag else ∃ text, option = .string text

/-- The document has no other key than `rules`, and under this a table of rules. -/
def HasFormat (document : Table) : Prop :=
  ∀ key value, document.Writes key value → key = rulesKey ∧ ∃ kind rules,
    value = .table kind rules ∧ ∀ name rule, Table.Writes rules name rule → IsRule rule

/-- The document has no other key than `rules`, and under this a table of tables as above, or of dates
and times, which unfold to such. -/
def IsAccepted (document : Table) : Prop :=
  ∀ key value, document.Writes key value → key = rulesKey ∧ ∃ kind rules,
    value = .table kind rules ∧ ∀ name rule, Table.Writes rules name rule →
      IsRule rule ∨ ∃ moment, rule = .dateTime moment

def WritesRule (document : Table) (name : String) (table : Table) : Prop :=
  ∃ kind rules kind', document.Writes rulesKey (.table kind rules) ∧
    Table.Writes rules name (.table kind' table)

/-- The rule is on or off as its table says, and on if this says nothing. Its options are all the
other entries, word for word. -/
structure Follows (rule : RuleSettings) (table : Table) : Prop where
  stated : ∀ flag, table.Writes enabledKey (.boolean flag) → rule.enabled = flag
  unstated : (∀ value, ¬table.Writes enabledKey value) → rule.enabled = true
  options : ∀ key text, rule.options[key]? = some text ↔
    key ≠ enabledKey ∧ table.Writes key (.string text)

/-- The settings are for the rules of the document, and for each of these they follow its table. -/
structure FollowsDocument (settings : Settings) (document : Table) : Prop where
  ruleNames : ∀ name, name ∈ settings.ruleNames ↔ ∃ table, WritesRule document name table
  rules : ∀ name table, WritesRule document name table →
    ∃ rule, settings.rule? name = some rule ∧ Follows rule table

/-- The value is no date or time. -/
def NoMoment (value : Value) : Prop :=
  ∀ moment, value ≠ .dateTime moment

/-- No value of the document, at any depth, is a date or time. -/
def IsTimeless (document : Table) : Prop :=
  ∀ entry ∈ document, entry.2.content.Throughout NoMoment

section Decide

variable {value : Value}

instance {Fits : TableKind → Table → Prop} [∀ kind entries, Decidable (Fits kind entries)] :
    Decidable (∃ kind entries, value = .table kind entries ∧ Fits kind entries) :=
  match value with
  | .table kind entries => decidable_of_iff (Fits kind entries) (by simp)
  | .string _ | .integer _ | .float _ | .boolean _ | .dateTime _ | .array _ _ => isFalse (by simp)

instance : Decidable (∃ flag, value = .boolean flag) :=
  match value with
  | .boolean flag => isTrue ⟨flag, rfl⟩
  | .string _ | .integer _ | .float _ | .dateTime _ | .array _ _ | .table _ _ => isFalse (by simp)

instance : Decidable (∃ text, value = .string text) :=
  match value with
  | .string text => isTrue ⟨text, rfl⟩
  | .integer _ | .float _ | .boolean _ | .dateTime _ | .array _ _ | .table _ _ => isFalse (by simp)

instance : Decidable (∃ moment, value = .dateTime moment) :=
  match value with
  | .dateTime moment => isTrue ⟨moment, rfl⟩
  | .string _ | .integer _ | .float _ | .boolean _ | .array _ _ | .table _ _ => isFalse (by simp)

instance {Good : String → Value → Prop} [∀ key value, Decidable (Good key value)] {table : Table} :
    Decidable (∀ key value, table.Writes key value → Good key value) :=
  decidable_of_iff _ Table.forall_writes_iff.symm

instance : DecidablePred IsRule := by
  unfold IsRule
  infer_instance

instance (document : Table) : Decidable (HasFormat document) := by
  unfold HasFormat
  infer_instance

instance (document : Table) : Decidable (IsAccepted document) := by
  unfold IsAccepted
  infer_instance

instance (document : Table) : Decidable (IsTimeless document) :=
  have : DecidablePred NoMoment := fun value =>
    decidable_of_iff (¬∃ moment, value = .dateTime moment) not_exists
  inferInstanceAs (Decidable (∀ entry ∈ document, entry.2.content.Throughout NoMoment))

end Decide

theorem entries?_eq_some_iff {value : Located Value} {entries : Table}
    (timeless : NoMoment value.content) :
    value.entries? = some entries ↔ ∃ kind, value.content = .table kind entries := by
  unfold Located.entries?
  cases content : value.content with
  | table kind own => simp
  | dateTime moment => exact absurd content (timeless moment)
  | _ => simp

theorem noMoment_of_table {value : Value} {kind : TableKind} {entries : Table}
    (timeless : value.Throughout NoMoment) (shape : value = .table kind entries) :
    ∀ entry ∈ entries, NoMoment entry.2.content := by
  intro entry member
  rw [shape, Value.throughout_table_iff] at timeless
  exact (timeless.2 entry member).own

section Steps

variable {entry : Entry}

theorem decodeEnabled_eq_ok_iff {enabled next : Bool} :
    decodeEnabled enabled entry = .ok next ↔
      entry.1.content = enabledKey ∧ entry.2.content = .boolean next ∨
        entry.1.content ≠ enabledKey ∧ next = enabled := by
  unfold decodeEnabled
  split
  · next switch =>
      cases content : entry.2.content with
      | boolean flag => simp [switch]
      | _ => simp [switch, wrongType]
  · next other => simp [other, eq_comm]

theorem decodeOption_eq_ok_iff {span : Span} {options next : Std.TreeMap String String} :
    decodeOption span options entry = .ok next ↔
      entry.1.content = enabledKey ∧ next = options ∨
        entry.1.content ≠ enabledKey ∧ ∃ text, entry.2.content = .string text ∧
          next = options.insert entry.1.content text := by
  unfold decodeOption
  split
  · next switch => simp [switch, eq_comm]
  · next other =>
      cases content : entry.2.content with
      | string text => simp [other, eq_comm]
      | _ => simp [other, wrongType]

theorem decodeRule_eq_ok_iff {value : Located Value} {rule : RuleSettings} :
    decodeRule value = .ok rule ↔ ∃ entries, value.entries? = some entries ∧
      entries.foldlM decodeEnabled true = .ok rule.enabled ∧
      entries.foldlM (decodeOption value.span) {} = .ok rule.options := by
  unfold decodeRule
  cases value.entries? with
  | none => simp [wrongType]
  | some entries =>
      simp only [Option.some.injEq, exists_eq_left']
      constructor
      · intro done
        obtain ⟨enabled, switched, done⟩ := exists_of_bind_eq_ok done
        obtain ⟨options, collected, shape⟩ := exists_of_bind_eq_ok done
        cases shape
        exact ⟨switched, collected⟩
      · intro ⟨switched, collected⟩
        rw [switched, collected]
        rfl

theorem decodeNamed_eq_ok_iff {rules next : Std.TreeMap String RuleSettings} :
    decodeNamed rules entry = .ok next ↔
      ∃ rule, decodeRule entry.2 = .ok rule ∧ next = rules.insert entry.1.content rule := by
  unfold decodeNamed
  constructor
  · intro done
    obtain ⟨rule, decoded, shape⟩ := exists_of_bind_eq_ok done
    cases shape
    exact ⟨rule, decoded, rfl⟩
  · intro ⟨rule, decoded, shape⟩
    rw [decoded, shape]
    rfl

theorem decodeRules_eq_ok_iff {value : Located Value} {rules : Std.TreeMap String RuleSettings} :
    decodeRules value = .ok rules ↔
      ∃ entries, value.entries? = some entries ∧ entries.foldlM decodeNamed {} = .ok rules := by
  unfold decodeRules
  cases value.entries? with
  | none => simp [wrongType]
  | some entries => simp

theorem decodeEntry_eq_ok_iff {settings next : Settings} :
    decodeEntry settings entry = .ok next ↔
      entry.1.content = rulesKey ∧ decodeRules entry.2 = .ok next.rules := by
  unfold decodeEntry
  split
  · next own =>
      constructor
      · intro done
        obtain ⟨rules, decoded, shape⟩ := exists_of_bind_eq_ok done
        cases shape
        exact ⟨own, decoded⟩
      · intro ⟨_, decoded⟩
        rw [decoded]
        rfl
  · next other => simp [other]

end Steps

section Acceptance

theorem exists_switch_iff {table : Table} :
    (∃ enabled, table.foldlM decodeEnabled true = .ok enabled) ↔
      ∀ entry ∈ table, entry.1.content = enabledKey → ∃ flag, entry.2.content = .boolean flag := by
  apply exists_foldlM_iff
  intro enabled entry member
  simp only [decodeEnabled_eq_ok_iff]
  by_cases own : entry.1.content = enabledKey
  · simp [own]
  · simp [own]

theorem exists_options_iff {span : Span} {table : Table} :
    (∃ options, table.foldlM (decodeOption span) {} = .ok options) ↔
      ∀ entry ∈ table, entry.1.content ≠ enabledKey → ∃ text, entry.2.content = .string text := by
  apply exists_foldlM_iff
  intro options entry member
  simp only [decodeOption_eq_ok_iff]
  by_cases own : entry.1.content = enabledKey
  · simp [own]
  · simp [own]

theorem exists_decodeRule_iff_of_table {value : Located Value} {kind : TableKind} {entries : Table}
    (shape : value.content = .table kind entries) :
    (∃ rule, decodeRule value = .ok rule) ↔ IsRule value.content := by
  have found : value.entries? = some entries := by rw [Located.entries?, shape]
  constructor
  · intro ⟨rule, decoded⟩
    obtain ⟨own, unfolds, switched, collected⟩ := decodeRule_eq_ok_iff.1 decoded
    rw [found, Option.some.injEq] at unfolds
    subst unfolds
    refine ⟨kind, entries, shape, Table.forall_writes_iff.2 ?_⟩
    intro entry member
    split
    · next own => exact exists_switch_iff.1 ⟨_, switched⟩ entry member own
    · next other => exact exists_options_iff.1 ⟨_, collected⟩ entry member other
  · intro ⟨kind', own, shape', fits⟩
    rw [shape] at shape'
    cases shape'
    rw [Table.forall_writes_iff] at fits
    obtain ⟨enabled, switched⟩ := exists_switch_iff.2 fun entry member own =>
      (if_pos own).mp (fits entry member)
    obtain ⟨options, collected⟩ := (@exists_options_iff value.span entries).2
      fun entry member other => (if_neg other).mp (fits entry member)
    exact ⟨⟨enabled, options⟩, decodeRule_eq_ok_iff.2 ⟨entries, found, switched, collected⟩⟩

/-- A date or time unfolds to a table with a single text in it, which is an option. -/
theorem exists_decodeRule_of_moment {value : Located Value} {moment : DateTime}
    (shape : value.content = .dateTime moment) : ∃ rule, decodeRule value = .ok rule := by
  have found : value.entries? = some [(⟨value.span, Value.momentKey⟩,
      ⟨value.span, .string moment.render⟩)] := by
    rw [Located.entries?, shape]
  have other : Value.momentKey ≠ enabledKey := by decide
  refine ⟨⟨true, {(Value.momentKey, moment.render)}⟩, decodeRule_eq_ok_iff.2 ⟨_, found, ?_, ?_⟩⟩
  · simp [decodeEnabled, other]
  · simp [decodeOption, other]

theorem exists_decodeRule_iff {value : Located Value} : (∃ rule, decodeRule value = .ok rule) ↔
    IsRule value.content ∨ ∃ moment, value.content = .dateTime moment := by
  cases content : value.content with
  | table kind entries =>
      rw [exists_decodeRule_iff_of_table content, content]
      simp
  | dateTime moment => exact iff_of_true (exists_decodeRule_of_moment content) (.inr ⟨_, rfl⟩)
  | _ => simp [decodeRule, Located.entries?, content, IsRule, wrongType]

theorem exists_named_iff {entries : Table} :
    (∃ rules, entries.foldlM decodeNamed {} = .ok rules) ↔ ∀ entry ∈ entries,
      IsRule entry.2.content ∨ ∃ moment, entry.2.content = .dateTime moment := by
  apply exists_foldlM_iff
  intro rules entry member
  rw [← exists_decodeRule_iff]
  simp only [decodeNamed_eq_ok_iff]
  constructor
  · intro ⟨next, rule, decoded, _⟩
    exact ⟨rule, decoded⟩
  · intro ⟨rule, decoded⟩
    exact ⟨_, rule, decoded, rfl⟩

/-- The text in the table of a date or time is the settings of no rule. -/
theorem exists_decodeRules_iff {value : Located Value} : (∃ rules, decodeRules value = .ok rules) ↔
    ∃ kind rules, value.content = .table kind rules ∧ ∀ name rule, Table.Writes rules name rule →
      IsRule rule ∨ ∃ moment, rule = .dateTime moment := by
  cases content : value.content with
  | table kind entries =>
      have found : value.entries? = some entries := by rw [Located.entries?, content]
      simp only [decodeRules_eq_ok_iff, found, Option.some.injEq, exists_eq_left', exists_named_iff,
        Value.table.injEq, Table.forall_writes_iff]
      constructor
      · exact fun fits => ⟨kind, entries, ⟨rfl, rfl⟩, fits⟩
      · rintro ⟨_, _, ⟨rfl, rfl⟩, fits⟩
        exact fits
  | dateTime moment =>
      simp [decodeRules_eq_ok_iff, Located.entries?, content, decodeNamed_eq_ok_iff, decodeRule,
        wrongType]
  | _ => simp [decodeRules_eq_ok_iff, Located.entries?, content]

theorem exists_decode_iff_isAccepted {document : Table} :
    (∃ settings, decode document = .ok settings) ↔ IsAccepted document := by
  rw [IsAccepted, Table.forall_writes_iff]
  apply exists_foldlM_iff
  intro settings entry member
  rw [← exists_decodeRules_iff]
  simp only [decodeEntry_eq_ok_iff]
  constructor
  · intro ⟨next, own, decoded⟩
    exact ⟨own, next.rules, decoded⟩
  · intro ⟨own, rules, decoded⟩
    exact ⟨⟨rules⟩, own, decoded⟩

theorem isAccepted_iff_hasFormat {document : Table} (timeless : IsTimeless document) :
    IsAccepted document ↔ HasFormat document := by
  constructor
  · rintro accepted key value ⟨entry, member, own, rfl⟩
    obtain ⟨same, kind, rules, shape, fits⟩ := accepted key _ ⟨entry, member, own, rfl⟩
    refine ⟨same, kind, rules, shape, ?_⟩
    rintro name rule ⟨inner, within, named, rfl⟩
    refine (fits name _ ⟨inner, within, named, rfl⟩).resolve_right ?_
    intro ⟨moment, written⟩
    exact noMoment_of_table (timeless entry member) shape inner within moment written
  · intro fits key value writes
    obtain ⟨same, kind, rules, shape, fits⟩ := fits key value writes
    exact ⟨same, kind, rules, shape, fun name rule writes => .inl (fits name rule writes)⟩

theorem exists_decode_iff {document : Table} (timeless : IsTimeless document) :
    (∃ settings, decode document = .ok settings) ↔ HasFormat document := by
  rw [exists_decode_iff_isAccepted, isAccepted_iff_hasFormat timeless]

end Acceptance

section Content

theorem enabled_of_switch {table : Table} {enabled : Bool}
    (switched : table.foldlM decodeEnabled true = .ok enabled) :
    (∃ entry ∈ table, entry.1.content = enabledKey ∧ entry.2.content = .boolean enabled) ∨
      (∀ entry ∈ table, entry.1.content ≠ enabledKey) ∧ enabled = true := by
  apply foldlM_tells id (·.1.content = enabledKey)
    (fun entry flag => entry.2.content = .boolean flag) ?_ switched
  intro state entry _ next done
  exact decodeEnabled_eq_ok_iff.1 done

theorem option_of_options {span : Span} {table : Table} {options : Std.TreeMap String String}
    (collected : table.foldlM (decodeOption span) {} = .ok options) (key : String) :
    (∃ entry ∈ table, (entry.1.content = key ∧ key ≠ enabledKey) ∧
        ∃ text, entry.2.content = .string text ∧ options[key]? = some text) ∨
      (∀ entry ∈ table, ¬(entry.1.content = key ∧ key ≠ enabledKey)) ∧ options[key]? = none := by
  apply foldlM_tells (·[key]?) (fun entry => entry.1.content = key ∧ key ≠ enabledKey)
    (fun entry found => ∃ text, entry.2.content = .string text ∧ found = some text) ?_ collected
  intro state entry _ next done
  rcases decodeOption_eq_ok_iff.1 done with ⟨switch, rfl⟩ | ⟨other, text, shape, rfl⟩
  · right
    refine ⟨?_, rfl⟩
    intro ⟨named, different⟩
    exact different (named ▸ switch)
  · rw [Std.TreeMap.getElem?_insert]
    by_cases same : entry.1.content = key
    · left
      simp [← same, other, shape]
    · right
      simp [same]

theorem follows_of_decodeRule {value : Located Value} {rule : RuleSettings} {kind : TableKind}
    {table : Table} (ascends : table.Ascends) (shape : value.content = .table kind table)
    (decoded : decodeRule value = .ok rule) : Follows rule table := by
  obtain ⟨entries, found, switched, collected⟩ := decodeRule_eq_ok_iff.1 decoded
  rw [Located.entries?, shape, Option.some.injEq] at found
  subst found
  constructor
  case stated =>
    intro flag ⟨entry, member, own, stated⟩
    rcases enabled_of_switch switched with ⟨other, member', own', told⟩ | ⟨none, _⟩
    · rw [ascends.eq_of_key_eq member member' (own.trans own'.symm), told] at stated
      exact Value.boolean.inj stated
    · exact absurd own (none entry member)
  case unstated =>
    intro silent
    rcases enabled_of_switch switched with ⟨entry, member, own, told⟩ | ⟨_, kept⟩
    · exact absurd ⟨entry, member, own, rfl⟩ (silent entry.2.content)
    · exact kept
  case options =>
    intro key text
    rcases option_of_options collected key with
      ⟨entry, member, ⟨named, other⟩, written, told, found⟩ | ⟨none, found⟩
    · rw [found, Option.some.injEq]
      constructor
      · intro same
        exact ⟨other, entry, member, named, same ▸ told⟩
      · intro ⟨_, entry', member', named', told'⟩
        rw [ascends.eq_of_key_eq member' member (named'.trans named.symm), told] at told'
        exact Value.string.inj told'
    · rw [found]
      constructor
      · intro absurd
        cases absurd
      · intro ⟨other, entry, member, named, _⟩
        exact absurd ⟨named, other⟩ (none entry member)

theorem rule_of_rules {entries : Table} {rules : Std.TreeMap String RuleSettings}
    (named : entries.foldlM decodeNamed {} = .ok rules) (name : String) :
    (∃ entry ∈ entries, entry.1.content = name ∧
        ∃ rule, decodeRule entry.2 = .ok rule ∧ rules[name]? = some rule) ∨
      (∀ entry ∈ entries, entry.1.content ≠ name) ∧ rules[name]? = none := by
  apply foldlM_tells (·[name]?) (·.1.content = name)
    (fun entry found => ∃ rule, decodeRule entry.2 = .ok rule ∧ found = some rule) ?_ named
  intro state entry _ next done
  obtain ⟨rule, decoded, rfl⟩ := decodeNamed_eq_ok_iff.1 done
  rw [Std.TreeMap.getElem?_insert]
  by_cases same : entry.1.content = name
  · left
    simp [same, decoded]
  · right
    simp [same]

theorem rules_of_decode {document : Table} {settings : Settings}
    (decoded : decode document = .ok settings) :
    (∃ entry ∈ document, entry.1.content = rulesKey ∧ decodeRules entry.2 = .ok settings.rules) ∨
      (∀ entry ∈ document, entry.1.content ≠ rulesKey) ∧ settings.rules = {} := by
  apply foldlM_tells (·.rules) (·.1.content = rulesKey)
    (fun entry rules => decodeRules entry.2 = .ok rules) ?_ decoded
  intro state entry _ next done
  exact .inl (decodeEntry_eq_ok_iff.1 done)

theorem exists_rule_of_writes {entries table : Table} {kind : TableKind} {name : String}
    {rules : Std.TreeMap String RuleSettings} (ascends : entries.Ascends)
    (named : entries.foldlM decodeNamed {} = .ok rules)
    (writes : entries.Writes name (.table kind table)) :
    ∃ rule, rules[name]? = some rule ∧ Follows rule table := by
  have below := ascends.of_writes writes
  obtain ⟨entry, member, own, shape⟩ := writes
  rcases rule_of_rules named name with ⟨other, member', own', rule, decoded, found⟩ | ⟨none, _⟩
  · rw [ascends.eq_of_key_eq member' member (own'.trans own.symm)] at decoded
    exact ⟨rule, found, follows_of_decodeRule below shape decoded⟩
  · exact absurd own (none entry member)

theorem exists_writes_of_rule {entries : Table} {rules : Std.TreeMap String RuleSettings}
    (timeless : ∀ entry ∈ entries, NoMoment entry.2.content)
    (named : entries.foldlM decodeNamed {} = .ok rules) {name : String} {rule : RuleSettings}
    (found : rules[name]? = some rule) : ∃ kind table, entries.Writes name (.table kind table) := by
  rcases rule_of_rules named name with ⟨entry, member, own, _, decoded, _⟩ | ⟨_, none⟩
  · rcases exists_decodeRule_iff.1 ⟨_, decoded⟩ with ⟨kind, table, shape, _⟩ | ⟨moment, shape⟩
    · exact ⟨kind, table, entry, member, own, shape⟩
    · exact absurd shape (timeless entry member moment)
  · rw [none] at found
    cases found

theorem exists_rule_of_writesRule {document table : Table} {settings : Settings} {name : String}
    (ascends : document.Ascends) (timeless : IsTimeless document)
    (decoded : decode document = .ok settings) (writes : WritesRule document name table) :
    ∃ rule, settings.rule? name = some rule ∧ Follows rule table := by
  obtain ⟨kind, rules, kind', written, writes⟩ := writes
  rcases rules_of_decode decoded with ⟨entry, member, own, decodedRules⟩ | ⟨none, _⟩
  · obtain ⟨entries, found, named⟩ := decodeRules_eq_ok_iff.1 decodedRules
    obtain ⟨kind'', shape⟩ := (entries?_eq_some_iff (timeless entry member).own).1 found
    cases ascends.writes_unique written ⟨entry, member, own, shape⟩
    exact exists_rule_of_writes (ascends.of_writes written) named writes
  · obtain ⟨entry, member, own, _⟩ := written
    exact absurd own (none entry member)

theorem exists_writesRule_of_rule {document : Table} {settings : Settings} {name : String}
    {rule : RuleSettings} (timeless : IsTimeless document)
    (decoded : decode document = .ok settings) (here : settings.rule? name = some rule) :
    ∃ table, WritesRule document name table := by
  rcases rules_of_decode decoded with ⟨entry, member, own, decodedRules⟩ | ⟨_, empty⟩
  · obtain ⟨entries, found, named⟩ := decodeRules_eq_ok_iff.1 decodedRules
    obtain ⟨kind, shape⟩ := (entries?_eq_some_iff (timeless entry member).own).1 found
    have inner := noMoment_of_table (timeless entry member) shape
    obtain ⟨kind', table, writes⟩ := exists_writes_of_rule inner named here
    exact ⟨table, kind, entries, kind', ⟨entry, member, own, shape⟩, writes⟩
  · rw [rule?, empty] at here
    simp at here

theorem followsDocument_of_decode {document : Table} {settings : Settings}
    (ascends : document.Ascends) (timeless : IsTimeless document)
    (decoded : decode document = .ok settings) : FollowsDocument settings document where
  ruleNames := by
    intro name
    rw [mem_ruleNames_iff, Option.isSome_iff_exists]
    constructor
    · intro ⟨rule, here⟩
      exact exists_writesRule_of_rule timeless decoded here
    · intro ⟨table, writes⟩
      obtain ⟨rule, here, _⟩ := exists_rule_of_writesRule ascends timeless decoded writes
      exact ⟨rule, here⟩
  rules := fun _ _ writes => exists_rule_of_writesRule ascends timeless decoded writes

end Content

theorem ofText_of_parse? {path text : String} {document : Table}
    (read : Toml.parse? text = some document) :
    ofText path text = (decode document).mapError (.misshapen path text) := by
  rw [ofText, read]

/-- A document of the format is decoded, and any other document is refused. The settings follow the
document if its keys ascend, and so they do whatever the text is that the document is read from. -/
theorem format_decides_settings {document : Table} (timeless : IsTimeless document) :
    (HasFormat document → ∃ settings, decode document = .ok settings ∧
      (document.Ascends → FollowsDocument settings document) ∧
      ∀ path text, Toml.parse? text = some document →
        ofText path text = .ok settings ∧ FollowsDocument settings document) ∧
    (¬HasFormat document → ∃ problem, decode document = .error problem ∧
      ∀ path text, Toml.parse? text = some document →
        ofText path text = .error (.misshapen path text problem)) := by
  constructor
  · intro fits
    obtain ⟨settings, decoded⟩ := (exists_decode_iff timeless).2 fits
    have follows (ascends : document.Ascends) : FollowsDocument settings document :=
      followsDocument_of_decode ascends timeless decoded
    refine ⟨settings, decoded, follows, ?_⟩
    intro path text read
    rw [ofText_of_parse? read, decoded]
    exact ⟨rfl, follows (ascends_of_parse? read)⟩
  · intro unfit
    cases answer : decode document with
    | ok settings => exact absurd ((exists_decode_iff timeless).1 ⟨settings, answer⟩) unfit
    | error problem =>
        refine ⟨problem, rfl, ?_⟩
        intro path text read
        rw [ofText_of_parse? read, answer]
        rfl

section TwoRules

def unplaced {α : Type} (content : α) : Located α :=
  ⟨default, content⟩

def camelCaseTable : Table :=
  [(unplaced "enabled", unplaced (.boolean false)),
   (unplaced "properties", unplaced (.string "never"))]

def otherTable : Table :=
  [(unplaced "note", unplaced (.string "enabled"))]

def rulesTable : Table :=
  [(unplaced "camelcase", unplaced (.table .header camelCaseTable)),
   (unplaced "other", unplaced (.table .dotted otherTable))]

/-- A rule that is off and has an option, and one that has an option only. -/
def twoRules : Table :=
  [(unplaced "rules", unplaced (.table .implied rulesTable))]

theorem ascends_twoRules : twoRules.Ascends := by decide

theorem isTimeless_twoRules : IsTimeless twoRules := by decide

theorem hasFormat_twoRules : HasFormat twoRules := by decide

def offText : String :=
  "[rules.camelcase]\nenabled = false\nproperties = \"never\"\n"

def numberText : String :=
  "[rules]\ncamelcase.properties = 1\n"

theorem exists_parse?_offText : ∃ document, Toml.parse? offText = some document ∧
    IsTimeless document ∧ HasFormat document := by
  have fits : (Toml.parse? offText).any
      (fun document => decide (IsTimeless document ∧ HasFormat document)) = true := by
    decide +kernel
  simpa using (Option.any_eq_true ..).1 fits

theorem exists_parse?_numberText : ∃ document, Toml.parse? numberText = some document ∧
    IsTimeless document ∧ ¬HasFormat document := by
  have unfit : (Toml.parse? numberText).any
      (fun document => decide (IsTimeless document ∧ ¬HasFormat document)) = true := by
    decide +kernel
  simpa using (Option.any_eq_true ..).1 unfit

/-- The first rule is off, and its option is there word for word. So it is with a text that says
this. A text whose option is a number is refused. -/
theorem format_decides_twoRules :
    (IsTimeless twoRules ∧ twoRules.Ascends ∧ HasFormat twoRules ∧
      ∃ settings, decode twoRules = .ok settings ∧ FollowsDocument settings twoRules ∧
        settings.isEnabled "camelcase" = false ∧
        (settings.options "camelcase")["properties"]? = some "never") ∧
    (∃ document settings, Toml.parse? offText = some document ∧ IsTimeless document ∧
      HasFormat document ∧ ofText "camelint.toml" offText = .ok settings ∧
      FollowsDocument settings document ∧ settings.isEnabled "camelcase" = false) ∧
    ∃ document problem, Toml.parse? numberText = some document ∧ IsTimeless document ∧
      ¬HasFormat document ∧
      ofText "camelint.toml" numberText =
        .error (.misshapen "camelint.toml" numberText problem) := by
  refine ⟨⟨isTimeless_twoRules, ascends_twoRules, hasFormat_twoRules, ?_⟩, ?_, ?_⟩
  · obtain ⟨settings, decoded, follows, _⟩ :=
      (format_decides_settings isTimeless_twoRules).1 hasFormat_twoRules
    have told := follows ascends_twoRules
    obtain ⟨rule, found, follows⟩ := told.rules "camelcase" camelCaseTable
      ⟨.implied, rulesTable, .header, ⟨_, List.mem_cons_self, rfl, rfl⟩,
        ⟨_, List.mem_cons_self, rfl, rfl⟩⟩
    refine ⟨settings, decoded, told, ?_, ?_⟩
    · rw [isEnabled, found]
      exact follows.stated false ⟨_, List.mem_cons_self, rfl, rfl⟩
    · rw [options, found, follows.options]
      exact ⟨by decide, _, List.mem_cons_of_mem _ List.mem_cons_self, rfl, rfl⟩
  · obtain ⟨document, parsed, timeless, fits⟩ := exists_parse?_offText
    obtain ⟨settings, -, -, read⟩ := (format_decides_settings timeless).1 fits
    obtain ⟨done, follows⟩ := read "camelint.toml" offText parsed
    have off : (ofText "camelint.toml" offText).toOption.any
        (fun settings => !settings.isEnabled "camelcase") = true := by
      decide +kernel
    rw [done] at off
    refine ⟨document, settings, parsed, timeless, fits, done, follows, ?_⟩
    exact Bool.not_eq_eq_eq_not.1 off
  · obtain ⟨document, parsed, timeless, unfit⟩ := exists_parse?_numberText
    obtain ⟨problem, -, refused⟩ := (format_decides_settings timeless).2 unfit
    exact ⟨document, problem, parsed, timeless, unfit, refused _ _ parsed⟩

end TwoRules

end NameLint.Settings
