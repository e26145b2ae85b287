import NameLint.Files.FileSystem
import NameLint.Proofs.Fault

/-!
# What a write changes

A write changes the text of one file. What is a file, a directory or a link stays one, so every path
still leads where it led before, and what stands at any other route is as it was.
-/

namespace NameLint.Files

set_option autoImplicit false

/-- What stands at a route. What a directory holds stands at the routes below. -/
inductive Sight where
  | file (content : Option String)
  | directory
  | link (target : RawText)
deriving DecidableEq, Repr

namespace Sight

def kind : Sight → Sight
  | .file _ => .file none
  | other => other

def withText (text : String) : Sight → Sight
  | .file _ => .file (some text)
  | other => other

@[simp] theorem kind_withText (text : String) (sight : Sight) :
    (sight.withText text).kind = sight.kind := by
  cases sight <;> rfl

end Sight

namespace Entry

def sight : Entry → Sight
  | .file content => .file content
  | .directory _ => .directory
  | .link target => .link target

theorem child?_withText (text : String) (name other : RawText) (rest : Route) (entry : Entry) :
    (entry.withText text (name :: rest)).child? other = (entry.child? other).map fun child =>
      if other = name then child.withText text rest else child := by
  cases entry with
  | file content => simp [withText, child?]
  | link target => simp [withText, child?]
  | directory entries =>
      have keys : ((·.1 == other) ∘ fun child : RawText × Entry =>
          if child.1 == name then (child.1, withText text rest child.2) else child) =
          (·.1 == other) := by
        funext child
        simp only [Function.comp]
        split <;> rfl
      simp only [withText, child?, List.find?_map, keys, Option.map_map]
      cases found : entries.find? (·.1 == other) with
      | none => rfl
      | some child =>
          have key : child.1 = other := by simpa using List.find?_some found
          simp only [Option.map_some, Function.comp, key, beq_iff_eq]
          split <;> rfl

theorem sight_at?_withText (text : String) (route other : Route) (entry : Entry) :
    ((entry.withText text route).at? other).map sight =
      if other = route then ((entry.at? other).map sight).map (Sight.withText text)
      else (entry.at? other).map sight := by
  induction route generalizing entry other with
  | nil =>
      cases other with
      | nil => cases entry <;> rfl
      | cons name rest => cases entry <;> simp [withText, at?, child?]
  | cons name rest ih =>
      cases other with
      | nil => cases entry <;> simp [withText, at?, sight]
      | cons own below =>
          rw [at?, at?, child?_withText]
          cases entry.child? own with
          | none => simp
          | some child =>
              by_cases same : own = name
              · simp [same, ih]
              · simp [same]

end Entry

namespace FileSystem

def sight? (files : FileSystem) (route : Route) : Option Sight :=
  (files.root.at? route).map Entry.sight

/-- The file systems differ at most in the texts of files. -/
def Alike (files other : FileSystem) : Prop :=
  ∀ route, (files.sight? route).map Sight.kind = (other.sight? route).map Sight.kind

namespace Alike

theorem refl (files : FileSystem) : files.Alike files :=
  fun _ => rfl

variable {files other : FileSystem} (alike : files.Alike other)

include alike

theorem at?_eq (route : Route) :
    match files.root.at? route with
    | none => other.root.at? route = none
    | some (.file _) => ∃ content, other.root.at? route = some (.file content)
    | some (.directory _) => ∃ entries, other.root.at? route = some (.directory entries)
    | some (.link target) => other.root.at? route = some (.link target) := by
  have same := alike route
  simp only [sight?] at same
  generalize files.root.at? route = here at same ⊢
  generalize other.root.at? route = there at same ⊢
  cases here with
  | none => simpa using same.symm
  | some entry =>
      cases there with
      | none => simp at same
      | some entry' => cases entry <;> cases entry' <;> simp_all [Entry.sight, Sight.kind]

theorem follow_eq (links : Nat) (route names : Route) :
    files.follow links route names = other.follow links route names := by
  fun_induction files.follow links route names with
  | case1 => rw [follow]
  | case2 links route rest ih => rw [follow, if_pos rfl, ih]
  | case3 links route rest here ih => rw [follow, if_neg here, if_pos rfl, ih]
  | case4 links route name rest here up size =>
      rw [follow, if_neg here, if_neg up, if_pos size]
  | case5 links route name rest here up size found =>
      have same := alike.at?_eq (route ++ [name])
      rw [found] at same
      rw [follow, if_neg here, if_neg up, if_neg size, same]
  | case6 links route name rest here up size entries found ih =>
      have same := alike.at?_eq (route ++ [name])
      rw [found] at same
      obtain ⟨entries', same⟩ := same
      rw [follow, if_neg here, if_neg up, if_neg size, same, ih]
  | case7 links route name rest here up size content found last =>
      have same := alike.at?_eq (route ++ [name])
      rw [found] at same
      obtain ⟨content', same⟩ := same
      simp only [follow, here, up, size, same, last, if_true, if_false]
  | case8 links route name rest here up size content found last =>
      have same := alike.at?_eq (route ++ [name])
      rw [found] at same
      obtain ⟨content', same⟩ := same
      simp only [follow, here, up, size, same, last, Bool.false_eq_true, if_false]
  | case9 route name rest here up size target found =>
      have same := alike.at?_eq (route ++ [name])
      rw [found] at same
      simp only [follow, here, up, size, same, if_false]
  | case10 route name rest here up size target found links start ih =>
      have same := alike.at?_eq (route ++ [name])
      rw [found] at same
      simp only [follow, here, up, size, same, if_false]
      exact ih

theorem locate_eq (directory : Route) (path : Pathname) :
    files.locate directory path = other.locate directory path := by
  simp only [locate, alike.follow_eq]

end Alike

section Reading

variable {files : FileSystem} {directory : Route} {path : Pathname}

def isReadable (files : FileSystem) (directory : Route) (path : Pathname) : Bool :=
  (files.read directory path).isOk

theorem isReadable_iff : files.isReadable directory path ↔
    ∃ text, files.read directory path = .ok text := by
  rw [isReadable]
  cases files.read directory path <;> simp [Except.isOk, Except.toBool]

theorem read_eq_ok_iff {text : String} : files.read directory path = .ok text ↔
    ∃ route, files.locate directory path = .ok route ∧
      files.sight? route = some (.file (some text)) := by
  simp only [read, find, sight?]
  cases files.locate directory path with
  | error reason => simp [bind, Except.bind]
  | ok route =>
      simp only [bind, Except.bind, Except.ok.injEq, exists_eq_left']
      cases files.root.at? route with
      | none => simp
      | some entry => rcases entry with ⟨_ | text⟩ | entries | target <;> simp [Entry.sight]

theorem read_congr {other : FileSystem} (alike : files.Alike other)
    (same : ∀ route, files.locate directory path = .ok route →
      files.sight? route = other.sight? route) (text : String) :
    files.read directory path = .ok text ↔ other.read directory path = .ok text := by
  simp only [read_eq_ok_iff, ← alike.locate_eq]
  constructor
  · rintro ⟨route, located, stands⟩
    exact ⟨route, located, same route located ▸ stands⟩
  · rintro ⟨route, located, stands⟩
    exact ⟨route, located, (same route located).symm ▸ stands⟩

end Reading

section Writing

variable {files : FileSystem} {directory : Route} {path : Pathname}

theorem sight?_write {route : Route} (located : files.locate directory path = .ok route)
    (text : String) (other : Route) :
    (files.write directory path text).sight? other =
      if other = route then (files.sight? other).map (Sight.withText text)
      else files.sight? other := by
  simp only [write, located, sight?, Entry.sight_at?_withText]

theorem sight?_write_of_ne {text : String} {other : Route}
    (elsewhere : files.locate directory path ≠ .ok other) :
    (files.write directory path text).sight? other = files.sight? other := by
  cases located : files.locate directory path with
  | error reason => simp only [write, located]
  | ok route =>
      have apart : other ≠ route := by
        rintro rfl
        exact elsewhere located
      rw [sight?_write located, if_neg apart]

theorem alike_write (files : FileSystem) (directory : Route) (path : Pathname) (text : String) :
    files.Alike (files.write directory path text) := by
  intro other
  cases located : files.locate directory path with
  | error reason => simp only [write, located]
  | ok route =>
      rw [sight?_write located]
      split
      · rw [Option.map_map]
        congr 1
        funext sight
        exact (Sight.kind_withText text sight).symm
      · rfl

theorem read_write_self {old : String} (readable : files.read directory path = .ok old)
    (text : String) : (files.write directory path text).read directory path = .ok text := by
  obtain ⟨route, located, stands⟩ := read_eq_ok_iff.1 readable
  rw [read_eq_ok_iff, ← (alike_write files directory path text).locate_eq]
  exact ⟨route, located, by rw [sight?_write located, if_pos rfl, stands]; rfl⟩

/-- Two paths that do not lead to the same place. -/
def Apart (files : FileSystem) (directory : Route) (path other : Pathname) : Prop :=
  ∀ route, files.locate directory path = .ok route → files.locate directory other ≠ .ok route

theorem Apart.symm {other : Pathname} (apart : files.Apart directory path other) :
    files.Apart directory other path :=
  fun route located same => apart route same located

theorem Alike.apart_iff {after : FileSystem} {other : Pathname} (alike : files.Alike after) :
    after.Apart directory path other ↔ files.Apart directory path other := by
  simp only [Apart, alike.locate_eq]

theorem read_write_of_apart {other : Pathname} (apart : files.Apart directory path other)
    (text old : String) : (files.write directory path text).read directory other = .ok old ↔
      files.read directory other = .ok old := by
  refine (read_congr (alike_write files directory path text) ?_ old).symm
  intro route located
  exact (sight?_write_of_ne fun own => apart route own located).symm

end Writing

end FileSystem

end NameLint.Files
