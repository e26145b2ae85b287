import Mathlib.Data.List.Nodup
import Mathlib.Data.String.Basic
import NameLint.Toml.Parser

/-!
# Keys of a document

Whatever text a document is read from, its entries are sorted by key, and so are those of every
table at any depth of it. No key is there twice, since an entry is only put in where its key is
absent.
-/

namespace NameLint.Toml

open NameLint.Text

set_option autoImplicit false

namespace Value

def parts : Value → List Value
  | .array _ items => items.map (·.content)
  | .table _ entries => entries.map (·.2.content)
  | _ => []

/-- The property holds of the value and of every value below it. -/
inductive Throughout (Good : Value → Prop) : Value → Prop where
  | intro {value : Value} (own : Good value)
      (below : ∀ part ∈ value.parts, Throughout Good part) : Throughout Good value

variable {Good : Value → Prop}

theorem Throughout.own {value : Value} (all : value.Throughout Good) : Good value := by
  cases all with
  | intro own below => exact own

theorem throughout_iff_of_parts_eq_nil {value : Value} (none : value.parts = []) :
    value.Throughout Good ↔ Good value := by
  constructor
  · exact Throughout.own
  · intro own
    exact .intro own (by simp [none])

theorem throughout_array_iff {ofTables : Bool} {items : List (Located Value)} :
    (Value.array ofTables items).Throughout Good ↔
      Good (.array ofTables items) ∧ ∀ item ∈ items, item.content.Throughout Good := by
  constructor
  · rintro ⟨own, below⟩
    exact ⟨own, fun item member => below _ (List.mem_map_of_mem member)⟩
  · rintro ⟨own, below⟩
    refine .intro own fun part among => ?_
    obtain ⟨item, member, rfl⟩ := List.mem_map.1 among
    exact below item member

theorem throughout_table_iff {kind : TableKind} {entries : Table} :
    (Value.table kind entries).Throughout Good ↔
      Good (.table kind entries) ∧ ∀ entry ∈ entries, entry.2.content.Throughout Good := by
  constructor
  · rintro ⟨own, below⟩
    exact ⟨own, fun entry member => below _ (List.mem_map_of_mem member)⟩
  · rintro ⟨own, below⟩
    refine .intro own fun part among => ?_
    obtain ⟨entry, member, rfl⟩ := List.mem_map.1 among
    exact below entry member

section Decide

variable (Good) [DecidablePred Good]

mutual

def holds : Value → Bool
  | .array ofTables items => decide (Good (.array ofTables items)) && holdsOfItems items
  | .table kind entries => decide (Good (.table kind entries)) && holdsOfEntries entries
  | value => decide (Good value)

def holdsOfItems : List (Located Value) → Bool
  | [] => true
  | ⟨_, item⟩ :: rest => holds item && holdsOfItems rest

def holdsOfEntries : List (Key × Located Value) → Bool
  | [] => true
  | (_, ⟨_, value⟩) :: rest => holds value && holdsOfEntries rest

end

mutual

theorem holds_iff (value : Value) : holds Good value = true ↔ value.Throughout Good := by
  cases value with
  | array ofTables items =>
      rw [holds, Bool.and_eq_true, decide_eq_true_iff, throughout_array_iff, holdsOfItems_iff items]
  | table kind entries =>
      rw [holds, Bool.and_eq_true, decide_eq_true_iff, throughout_table_iff,
        holdsOfEntries_iff entries]
  | _ =>
      rw [throughout_iff_of_parts_eq_nil rfl]
      exact decide_eq_true_iff

theorem holdsOfItems_iff (items : List (Located Value)) :
    holdsOfItems Good items = true ↔ ∀ item ∈ items, item.content.Throughout Good := by
  match items with
  | [] => simp [holdsOfItems]
  | ⟨span, item⟩ :: rest =>
      rw [holdsOfItems, Bool.and_eq_true, holds_iff item, holdsOfItems_iff rest,
        List.forall_mem_cons]

theorem holdsOfEntries_iff (entries : List (Key × Located Value)) :
    holdsOfEntries Good entries = true ↔ ∀ entry ∈ entries, entry.2.content.Throughout Good := by
  match entries with
  | [] => simp [holdsOfEntries]
  | (key, ⟨span, value⟩) :: rest =>
      rw [holdsOfEntries, Bool.and_eq_true, holds_iff value, holdsOfEntries_iff rest,
        List.forall_mem_cons]

end

instance : DecidablePred (Throughout Good) :=
  fun value => decidable_of_iff _ (holds_iff Good value)

end Decide

end Value

namespace Table

def keys (table : Table) : List String :=
  table.map (·.1.content)

def Writes (table : Table) (key : String) (value : Value) : Prop :=
  ∃ entry ∈ table, entry.1.content = key ∧ entry.2.content = value

theorem forall_writes_iff {table : Table} {Good : String → Value → Prop} :
    (∀ key value, table.Writes key value → Good key value) ↔
      ∀ entry ∈ table, Good entry.1.content entry.2.content := by
  constructor
  · intro every entry member
    exact every _ _ ⟨entry, member, rfl, rfl⟩
  · intro every key value ⟨entry, member, named, same⟩
    rw [← named, ← same]
    exact every entry member

/-- The keys ascend, if the value is a table. -/
def KeysAscend : Value → Prop
  | .table _ entries => (keys entries).Pairwise (· < ·)
  | _ => True

instance : DecidablePred KeysAscend
  | .table _ entries => inferInstanceAs (Decidable ((keys entries).Pairwise (· < ·)))
  | .string _ | .integer _ | .float _ | .boolean _ | .dateTime _ | .array _ _ => isTrue trivial

/-- The keys of the table ascend, and those of all tables below it. -/
structure Ascends (table : Table) : Prop where
  keys : table.keys.Pairwise (· < ·)
  entries : ∀ entry ∈ table, entry.2.content.Throughout KeysAscend

instance (table : Table) : Decidable table.Ascends :=
  decidable_of_iff (table.keys.Pairwise (· < ·) ∧
      ∀ entry ∈ table, entry.2.content.Throughout KeysAscend)
    ⟨fun ⟨keys, entries⟩ => ⟨keys, entries⟩, fun ascends => ⟨ascends.keys, ascends.entries⟩⟩

theorem ascending_table_iff {kind : TableKind} {table : Table} :
    (Value.table kind table).Throughout KeysAscend ↔ table.Ascends := by
  rw [Value.throughout_table_iff]
  exact ⟨fun ⟨keys, entries⟩ => ⟨keys, entries⟩, fun ⟨keys, entries⟩ => ⟨keys, entries⟩⟩

theorem ascending_array_iff {ofTables : Bool} {items : List (Located Value)} :
    (Value.array ofTables items).Throughout KeysAscend ↔
      ∀ item ∈ items, item.content.Throughout KeysAscend := by
  rw [Value.throughout_array_iff]
  exact and_iff_right trivial

theorem ascending_of_parts_eq_nil {value : Value} (none : value.parts = []) :
    value.Throughout KeysAscend := by
  rw [Value.throughout_iff_of_parts_eq_nil none]
  cases value with
  | table kind entries =>
      rw [Value.parts, List.map_eq_nil_iff] at none
      rw [none]
      exact .nil
  | _ => trivial

theorem Ascends.of_writes {table below : Table} {key : String} {kind : TableKind}
    (ascends : table.Ascends) (writes : table.Writes key (.table kind below)) : below.Ascends := by
  obtain ⟨entry, member, -, same⟩ := writes
  exact ascending_table_iff.1 (same ▸ ascends.entries entry member)

theorem Ascends.eq_of_key_eq {table : Table} (ascends : table.Ascends)
    {first second : Key × Located Value} (left : first ∈ table) (right : second ∈ table)
    (same : first.1.content = second.1.content) : first = second := by
  have distinct : table.keys.Nodup := ascends.keys.imp fun before => before.ne
  exact List.inj_on_of_nodup_map distinct left right same

theorem Ascends.writes_unique {table : Table} (ascends : table.Ascends) {key : String}
    {first second : Value} (left : table.Writes key first) (right : table.Writes key second) :
    first = second := by
  obtain ⟨entry, member, named, shape⟩ := left
  obtain ⟨other, member', named', shape'⟩ := right
  rw [← shape, ← shape', ascends.eq_of_key_eq member member' (named.trans named'.symm)]

section Lookup

variable {table : Table} {name : String} {value : Located Value}

theorem find?_eq_none_iff : table.find? name = none ↔ name ∉ table.keys := by
  simp [find?, keys]

theorem exists_of_find?_eq_some (found : table.find? name = some value) :
    ∃ key : Key, (key, value) ∈ table ∧ key.content = name := by
  obtain ⟨entry, first, rfl⟩ := Option.map_eq_some_iff.1 found
  exact ⟨entry.1, List.mem_of_find?_eq_some first, by simpa using List.find?_some first⟩

end Lookup

section Changes

variable {table : Table} {name : String} {key : Key} {value : Located Value}

theorem mem_insert_iff {entry : Key × Located Value} :
    entry ∈ table.insert key value ↔ entry = (key, value) ∨ entry ∈ table := by
  induction table with
  | nil => simp [insert]
  | cons first rest ih =>
      rw [insert]
      split
      · simp
      · simp only [List.mem_cons, ih]
        exact or_left_comm

theorem keys_insert (ascending : table.keys.Pairwise (· < ·)) (absent : key.content ∉ table.keys) :
    (table.insert key value).keys.Pairwise (· < ·) := by
  induction table with
  | nil => simp [insert, keys]
  | cons first rest ih =>
      rw [keys, List.map_cons, List.mem_cons, not_or] at absent
      rw [keys, List.map_cons, List.pairwise_cons] at ascending
      obtain ⟨least, later⟩ := ascending
      rw [insert]
      split
      · next before =>
          rw [keys, List.map_cons, List.map_cons, List.pairwise_cons, List.pairwise_cons]
          refine ⟨?_, least, later⟩
          intro other member
          rcases List.mem_cons.1 member with rfl | member
          · exact before
          · exact before.trans (least other member)
      · next behind =>
          rw [keys, List.map_cons, List.pairwise_cons]
          refine ⟨?_, ih later absent.2⟩
          intro other member
          obtain ⟨entry, among, rfl⟩ := List.mem_map.1 member
          rcases mem_insert_iff.1 among with rfl | among
          · exact lt_of_le_of_ne (not_lt.1 behind) (Ne.symm absent.1)
          · exact least _ (List.mem_map_of_mem among)

theorem keys_replace : (table.replace name value).keys = table.keys := by
  rw [keys, keys, replace, List.map_map]
  apply List.map_congr_left
  intro entry member
  by_cases same : entry.1.content = name
  · simp [same]
  · simp [same]

theorem eq_or_mem_of_mem_replace {entry : Key × Located Value}
    (member : entry ∈ table.replace name value) : entry.2 = value ∨ entry ∈ table := by
  obtain ⟨old, among, rfl⟩ := List.mem_map.1 member
  by_cases same : old.1.content = name
  · left
    simp [same]
  · right
    simpa [same] using among

theorem not_mem_keys_erase : name ∉ (table.erase name).keys := by
  simp [keys, erase]

namespace Ascends

theorem nil : Ascends [] :=
  ⟨.nil, by simp⟩

theorem insert (ascends : table.Ascends) (absent : key.content ∉ table.keys)
    (inner : value.content.Throughout KeysAscend) : (table.insert key value).Ascends := by
  refine ⟨keys_insert ascends.keys absent, fun entry member => ?_⟩
  rcases mem_insert_iff.1 member with rfl | old
  · exact inner
  · exact ascends.entries entry old

theorem replace (ascends : table.Ascends) (inner : value.content.Throughout KeysAscend) :
    (table.replace name value).Ascends := by
  refine ⟨by rw [keys_replace]; exact ascends.keys, fun entry member => ?_⟩
  rcases eq_or_mem_of_mem_replace member with new | old
  · rw [new]
    exact inner
  · exact ascends.entries entry old

theorem erase (ascends : table.Ascends) : (table.erase name).Ascends :=
  ⟨ascends.keys.sublist (List.filter_sublist.map _),
    fun entry member => ascends.entries entry (List.mem_of_mem_filter member)⟩

theorem find? (ascends : table.Ascends) (found : table.find? name = some value) :
    value.content.Throughout KeysAscend := by
  obtain ⟨key, member, -⟩ := exists_of_find?_eq_some found
  exact ascends.entries _ member

end Ascends

end Changes

end Table

open Table

section Changes

/-- The change leaves the keys of a table ascending. -/
def KeepsAscending (change : TableKind → Table → Option Table) : Prop :=
  ∀ kind table changed, table.Ascends → change kind table = some changed → changed.Ascends

variable {change : TableKind → Table → Option Table}

theorem keepsAscending_within (keeps : KeepsAscending change) (dotted : Bool) (path : List Key) :
    KeepsAscending (within dotted change path) := by
  induction path with
  | nil => exact keeps
  | cons key path ih =>
      intro kind table changed ascends done
      rw [within] at done
      split at done
      · next absent =>
          obtain ⟨made, below, shape⟩ := Option.bind_eq_some_iff.1 done
          cases shape
          exact ascends.insert (find?_eq_none_iff.1 absent)
            (ascending_table_iff.2 (ih _ _ _ .nil below))
      · next span inner entries found =>
          have old := ascending_table_iff.1 (ascends.find? found)
          split at done
          · cases done
          · obtain ⟨filled, below, shape⟩ := Option.bind_eq_some_iff.1 done
            cases shape
            exact ascends.replace (ascending_table_iff.2 (ih _ _ _ old below))
      · next span items found =>
          have olds := ascending_array_iff.1 (ascends.find? found)
          split at done
          · next itemSpan inner entries last =>
              -- the last table of the array gives way to the changed one
              obtain ⟨filled, below, shape⟩ := Option.bind_eq_some_iff.1 done
              cases shape
              have old := ascending_table_iff.1 (olds _ (List.mem_of_getLast? last))
              apply ascends.replace
              rw [ascending_array_iff, List.forall_mem_append, List.forall_mem_singleton]
              exact ⟨fun item earlier => olds item (List.dropLast_subset items earlier),
                ascending_table_iff.2 (ih _ _ _ old below)⟩
          · cases done
      · cases done

theorem keepsAscending_addEntry (dotted : Bool) (key : Key) {value : Located Value}
    (inner : value.content.Throughout KeysAscend) : KeepsAscending (addEntry dotted key value) := by
  intro kind table changed ascends done
  rw [addEntry] at done
  split at done
  · next free =>
      cases done
      rw [Bool.and_eq_true, Option.isNone_iff_eq_none] at free
      exact ascends.insert (find?_eq_none_iff.1 free.2) inner
  · cases done

theorem keepsAscending_assign (key : KeyPath) {value : Located Value}
    (inner : value.content.Throughout KeysAscend) : KeepsAscending (assign key value) :=
  keepsAscending_within (keepsAscending_addEntry _ _ inner) _ _

theorem keepsAscending_openTable (key : Key) (span : Span) :
    KeepsAscending (openTable key span) := by
  intro kind table changed ascends done
  rw [openTable] at done
  split at done
  · next absent =>
      cases done
      exact ascends.insert (find?_eq_none_iff.1 absent) (ascending_table_iff.2 .nil)
  · next span entries found =>
      -- the key is out of the table when it is put in again, so the place of the entry may change
      cases done
      have old := ascending_table_iff.1 (ascends.find? found)
      exact ascends.erase.insert not_mem_keys_erase (ascending_table_iff.2 old)
  · cases done

theorem keepsAscending_openItem (key : Key) (span : Span) : KeepsAscending (openItem key span) := by
  intro kind table changed ascends done
  have fresh : (Value.table .header []).Throughout KeysAscend := ascending_table_iff.2 .nil
  rw [openItem] at done
  split at done
  · next absent =>
      cases done
      apply ascends.insert (find?_eq_none_iff.1 absent)
      rw [ascending_array_iff, List.forall_mem_singleton]
      exact fresh
  · next written items found =>
      cases done
      apply ascends.replace
      rw [ascending_array_iff, List.forall_mem_append, List.forall_mem_singleton]
      exact ⟨ascending_array_iff.1 (ascends.find? found), fresh⟩
  · cases done

end Changes

section Values

theorem parts_scalar? {word : List Char} {value : Value} (done : scalar? word = some value) :
    value.parts = [] := by
  unfold scalar? at done
  split_ifs at done with yes no
  · cases done
    rfl
  · cases done
    rfl
  · split at done
    · cases done
      rfl
    · split at done
      · cases done
        rfl
      · obtain ⟨moment, -, rfl⟩ := Option.map_eq_some_iff.1 done
        rfl

theorem parts_readScalar {input later : Input} {value : Located Value}
    (done : readScalar input = some (value, later)) : value.content.parts = [] := by
  unfold readScalar at done
  split at done
  · obtain ⟨⟨text, behind⟩, -, shape⟩ := Option.bind_eq_some_iff.1 done
    cases shape
    rfl
  · obtain ⟨⟨text, behind⟩, -, shape⟩ := Option.bind_eq_some_iff.1 done
    cases shape
    rfl
  · obtain ⟨content, read, shape⟩ := Option.bind_eq_some_iff.1 done
    cases shape
    exact parts_scalar? read

/-- What is read with so much fuel has ascending keys, if what was read before has. -/
structure ReadsAscending (fuel : Nat) : Prop where
  value : ∀ {nesting : Nat} {input later : Input} {value : Located Value},
    readValue fuel nesting input = some (value, later) → value.content.Throughout KeysAscend
  items : ∀ {nesting : Nat} {start input later : Input} {items : List (Located Value)}
    {value : Located Value}, (∀ item ∈ items, item.content.Throughout KeysAscend) →
    readItems fuel nesting start items input = some (value, later) →
    value.content.Throughout KeysAscend
  entries : ∀ {nesting : Nat} {start input later : Input} {table : Table} {value : Located Value},
    table.Ascends → readEntries fuel nesting start table input = some (value, later) →
    value.content.Throughout KeysAscend

theorem readsAscending_zero : ReadsAscending 0 where
  value := by
    intro nesting input later value done
    rw [readValue] at done
    cases done
  items := by
    intro nesting start input later items value _ done
    rw [readItems] at done
    cases done
  entries := by
    intro nesting start input later table value _ done
    rw [readEntries] at done
    cases done

section Step

variable {fuel nesting : Nat} {start input later : Input} {value : Located Value}
  (deeper : ReadsAscending fuel)

include deeper

theorem readValue_ascends (done : readValue (fuel + 1) nesting input = some (value, later)) :
    value.content.Throughout KeysAscend := by
  rw [readValue.eq_def] at done
  dsimp only at done
  split at done
  · cases done
  · cases done
  · exact deeper.items (by simp) done
  · exact deeper.entries .nil done
  · exact ascending_of_parts_eq_nil (parts_readScalar done)

theorem readItems_ascends {items : List (Located Value)}
    (olds : ∀ item ∈ items, item.content.Throughout KeysAscend)
    (done : readItems (fuel + 1) nesting start items input = some (value, later)) :
    value.content.Throughout KeysAscend := by
  have closed {items : List (Located Value)}
      (all : ∀ item ∈ items, item.content.Throughout KeysAscend) :
      (Value.array false items.reverse).Throughout KeysAscend :=
    ascending_array_iff.2 fun item member => all item (List.mem_reverse.1 member)
  rw [readItems.eq_def] at done
  obtain ⟨gap, -, done⟩ := Option.bind_eq_some_iff.1 done
  split at done
  · cases done
    exact closed olds
  · obtain ⟨⟨item, behind⟩, read, done⟩ := Option.bind_eq_some_iff.1 done
    obtain ⟨gap, -, done⟩ := Option.bind_eq_some_iff.1 done
    have all : ∀ other ∈ item :: items, other.content.Throughout KeysAscend :=
      List.forall_mem_cons.2 ⟨deeper.value read, olds⟩
    split at done
    · exact deeper.items all done
    · cases done
      exact closed all
    · cases done

theorem readEntries_ascends {table : Table} (ascends : table.Ascends)
    (done : readEntries (fuel + 1) nesting start table input = some (value, later)) :
    value.content.Throughout KeysAscend := by
  rw [readEntries.eq_def] at done
  obtain ⟨gap, -, done⟩ := Option.bind_eq_some_iff.1 done
  split at done
  · cases done
    exact ascending_table_iff.2 ascends
  · obtain ⟨⟨key, behind⟩, -, done⟩ := Option.bind_eq_some_iff.1 done
    obtain ⟨gap, -, done⟩ := Option.bind_eq_some_iff.1 done
    split at done
    · obtain ⟨front, -, done⟩ := Option.bind_eq_some_iff.1 done
      obtain ⟨⟨content, behind⟩, read, done⟩ := Option.bind_eq_some_iff.1 done
      obtain ⟨larger, assigned, done⟩ := Option.bind_eq_some_iff.1 done
      obtain ⟨gap, -, done⟩ := Option.bind_eq_some_iff.1 done
      have grown := keepsAscending_assign key (deeper.value read) _ _ _ ascends assigned
      split at done
      · exact deeper.entries grown done
      · cases done
        exact ascending_table_iff.2 grown
      · cases done
    · cases done

end Step

theorem readsAscending (fuel : Nat) : ReadsAscending fuel := by
  induction fuel with
  | zero => exact readsAscending_zero
  | succ fuel deeper =>
      exact ⟨readValue_ascends deeper, readItems_ascends deeper, readEntries_ascends deeper⟩

end Values

section Documents

variable {input later : Input} {reading next : Reading}

theorem readHeader_ascends {start : Input} {isItem : Bool} (ascends : reading.root.Ascends)
    (done : readHeader start input isItem reading = some (next, later)) : next.root.Ascends := by
  obtain ⟨⟨key, behind⟩, -, done⟩ := Option.bind_eq_some_iff.1 done
  obtain ⟨-, done⟩ := Option.ite_none_right_eq_some.1 done
  obtain ⟨root, opened, shape⟩ := Option.bind_eq_some_iff.1 done
  cases shape
  refine keepsAscending_within ?_ _ _ _ _ _ ascends opened
  split
  · exact keepsAscending_openItem _ _
  · exact keepsAscending_openTable _ _

theorem readAssignment_ascends (ascends : reading.root.Ascends)
    (done : readAssignment input reading = some (next, later)) : next.root.Ascends := by
  obtain ⟨⟨key, behind⟩, -, done⟩ := Option.bind_eq_some_iff.1 done
  dsimp only at done
  split at done
  · obtain ⟨⟨value, behind⟩, read, done⟩ := Option.bind_eq_some_iff.1 done
    obtain ⟨root, assigned, shape⟩ := Option.bind_eq_some_iff.1 done
    cases shape
    have inner := (readsAscending _).value read
    exact keepsAscending_within (keepsAscending_assign key inner) _ _ _ _ _ ascends assigned
  · cases done

theorem readLine_ascends (ascends : reading.root.Ascends)
    (done : readLine input reading = some (next, later)) : next.root.Ascends := by
  unfold readLine at done
  split at done
  · exact readHeader_ascends ascends done
  · exact readHeader_ascends ascends done
  · exact readAssignment_ascends ascends done

theorem readLines_ascends {fuel : Nat} {document : Table} (ascends : reading.root.Ascends)
    (done : readLines fuel reading input = some document) : document.Ascends := by
  induction fuel generalizing reading input with
  | zero =>
      rw [readLines] at done
      split at done
      · cases done
        exact ascends
      · cases done
  | succ fuel ih =>
      obtain ⟨gap, -, done⟩ := Option.bind_eq_some_iff.1 done
      dsimp only at done
      split at done
      · cases done
        exact ascends
      · obtain ⟨⟨grown, behind⟩, read, done⟩ := Option.bind_eq_some_iff.1 done
        obtain ⟨rest, -, done⟩ := Option.bind_eq_some_iff.1 done
        exact ih (readLine_ascends ascends read) done

theorem ascends_of_parse? {text : String} {document : Table} (done : parse? text = some document) :
    document.Ascends := by
  have start : (Reading.mk [] []).root.Ascends := .nil
  exact readLines_ascends start done

end Documents

end NameLint.Toml
