import Mathlib.Data.List.Nodup
import NameLint.Proofs.Files.Pathname

/-!
# Plain file systems

A plain file system has no links, and what its directories hold has names that differ and that paths
can spell. There every entry stands at one route, and a name on the way leads one directory down.
-/

namespace NameLint.Files

set_option autoImplicit false

namespace Entry

/-- The entry and what is below it are files and directories, each with a name of its own. -/
inductive Plain : Entry → Prop where
  | file (content : Option String) : Plain (.file content)
  | directory {entries : List (RawText × Entry)} (distinct : (entries.map (·.1)).Nodup)
      (named : ∀ child ∈ entries, IsEntryName child.1)
      (below : ∀ child ∈ entries, Plain child.2) : Plain (.directory entries)

theorem child?_eq_some_iff {entries : List (RawText × Entry)}
    (distinct : (entries.map (·.1)).Nodup) {name : RawText} {child : Entry} :
    (Entry.directory entries).child? name = some child ↔ (name, child) ∈ entries := by
  rw [child?, Option.map_eq_some_iff]
  constructor
  · rintro ⟨⟨own, entry⟩, found, rfl⟩
    have same : own = name := by simpa using List.find?_some found
    exact same ▸ List.mem_of_find?_eq_some found
  · intro member
    have found : ∃ other, entries.find? (·.1 == name) = some other :=
      Option.isSome_iff_exists.1 (List.find?_isSome.2 ⟨_, member, beq_self_eq_true name⟩)
    obtain ⟨other, found⟩ := found
    have same : other.1 = name := by simpa using List.find?_some found
    have only := List.inj_on_of_nodup_map distinct (List.mem_of_find?_eq_some found) member same
    exact ⟨other, found, by rw [only]⟩

namespace Plain

theorem child {entry child : Entry} {name : RawText} (plain : entry.Plain)
    (own : entry.child? name = some child) : child.Plain ∧ IsEntryName name := by
  cases plain with
  | file content => cases own
  | directory distinct named below =>
      have member := (child?_eq_some_iff distinct).1 own
      exact ⟨below _ member, named _ member⟩

theorem at? {entry other : Entry} {route : Route} (plain : entry.Plain)
    (stands : entry.at? route = some other) : other.Plain := by
  induction route generalizing entry with
  | nil =>
      cases stands
      exact plain
  | cons name rest ih =>
      obtain ⟨child, own, below⟩ := Option.bind_eq_some_iff.1 stands
      exact ih (plain.child own).1 below

theorem entryNames {entry other : Entry} {route : Route} (plain : entry.Plain)
    (stands : entry.at? route = some other) : ∀ name ∈ route, IsEntryName name := by
  induction route generalizing entry with
  | nil => exact List.forall_mem_nil _
  | cons name rest ih =>
      obtain ⟨child, own, below⟩ := Option.bind_eq_some_iff.1 stands
      rw [List.forall_mem_cons]
      exact ⟨(plain.child own).2, ih (plain.child own).1 below⟩

end Plain

end Entry

namespace FileSystem

/-- The directory that one name leads to from a directory. -/
def enter (files : FileSystem) (route : Route) (name : RawText) : Option Route :=
  if name = "." then some route
  else if name = ".." then some route.dropLast
  else if maxNameSize < name.size then none
  else
    match files.root.at? (route ++ [name]) with
    | some (.directory _) => some (route ++ [name])
    | _ => none

/-- Where names lead when there are no links: through directories, and to a file at most at the
end. -/
inductive Leads (files : FileSystem) : Route → Route → Route → Prop where
  | done (route : Route) : Leads files route [] route
  | step {route next last : Route} {name : RawText} {rest : Route}
      (entered : files.enter route name = some next) (later : Leads files next rest last) :
      Leads files route (name :: rest) last
  | file {route : Route} {name : RawText} (proper : name ≠ "." ∧ name ≠ "..")
      (short : ¬ maxNameSize < name.size) {content : Option String}
      (stands : files.root.at? (route ++ [name]) = some (.file content)) :
      Leads files route [name] (route ++ [name])

variable {files : FileSystem}

theorem enter_eq_some_iff {route next : Route} {name : RawText}
    (proper : name ≠ "." ∧ name ≠ "..") : files.enter route name = some next ↔
      ¬ maxNameSize < name.size ∧
        (∃ entries, files.root.at? (route ++ [name]) = some (.directory entries)) ∧
        next = route ++ [name] := by
  rw [enter, if_neg proper.1, if_neg proper.2]
  split
  · next size => simp [size]
  · next size =>
      rcases files.root.at? (route ++ [name]) with _ | ⟨content | entries | target⟩ <;>
        simp [size, eq_comm]

section Following

variable (plain : files.root.Plain)

include plain

theorem at?_ne_link (route : Route) (target : RawText) :
    files.root.at? route ≠ some (.link target) := by
  intro stands
  cases plain.at? stands

theorem leads_of_follow {links : Nat} {route last : Route} {names : Route}
    (reached : files.follow links route names = .ok last) : files.Leads route names last := by
  fun_induction files.follow links route names with
  | case1 =>
      cases reached
      exact .done _
  | case2 links route rest ih => exact .step (if_pos rfl) (ih reached)
  | case3 links route rest here ih =>
      exact .step ((if_neg here).trans (if_pos rfl)) (ih reached)
  | case4 => cases reached
  | case5 => cases reached
  | case6 links route name rest here up size entries found ih =>
      exact .step ((enter_eq_some_iff ⟨here, up⟩).2 ⟨size, ⟨entries, found⟩, rfl⟩) (ih reached)
  | case7 links route name rest here up size content found only =>
      cases reached
      cases List.isEmpty_iff.1 only
      exact .file ⟨here, up⟩ size found
  | case8 => cases reached
  | case9 => cases reached
  | case10 route name rest here up size target found =>
      exact absurd found (at?_ne_link plain _ target)

omit plain in
theorem Leads.follow_eq {route last : Route} {names : Route}
    (leads : files.Leads route names last) (links : Nat) :
    files.follow links route names = .ok last := by
  induction leads with
  | done route => rw [follow]
  | @step route next last name rest entered later ih =>
      rw [follow]
      by_cases here : name = "."
      · rw [enter, if_pos here, Option.some.injEq] at entered
        rw [if_pos here, entered, ih]
      by_cases up : name = ".."
      · rw [enter, if_neg here, if_pos up, Option.some.injEq] at entered
        rw [if_neg here, if_pos up, entered, ih]
      · obtain ⟨size, ⟨entries, found⟩, rfl⟩ := (enter_eq_some_iff ⟨here, up⟩).1 entered
        rw [if_neg here, if_neg up, if_neg size, found]
        exact ih
  | file proper short stands =>
      rw [follow, if_neg proper.1, if_neg proper.2, if_neg short, stands]
      rfl

theorem follow_eq_ok_iff {links : Nat} {route last : Route} {names : Route} :
    files.follow links route names = .ok last ↔ files.Leads route names last :=
  ⟨leads_of_follow plain, fun leads => leads.follow_eq links⟩

end Following

namespace Leads

variable {route middle last : Route} {name : RawText} {names rest more : Route}

theorem of_cons (leads : files.Leads route (name :: rest) last) :
    (∃ next, files.enter route name = some next ∧ files.Leads next rest last) ∨
      rest = [] ∧ last = route ++ [name] := by
  cases leads with
  | step entered later => exact .inl ⟨_, entered, later⟩
  | file proper short stands => exact .inr ⟨rfl, rfl⟩

theorem of_not_entered (outside : files.enter route name = none)
    (leads : files.Leads route (name :: rest) last) : rest = [] ∧ last = route ++ [name] := by
  rcases leads.of_cons with ⟨next, entered, -⟩ | last
  · rw [outside] at entered
    cases entered
  · exact last

theorem without_dots (leads : files.Leads route names last) :
    files.Leads route (names.filter (· != ("." : RawText))) last := by
  induction leads with
  | done route => exact .done route
  | @step route next last name rest entered later ih =>
      by_cases dot : name = "."
      · subst dot
        cases entered
        exact ih
      · rw [List.filter_cons_of_pos (by simpa using dot)]
        exact .step entered ih
  | @file route name proper short content stands =>
      rw [List.filter_cons_of_pos (by simpa using proper.1)]
      exact .file proper short stands

theorem exists_split (leads : files.Leads route (names ++ more) last) :
    ∃ middle, files.Leads route names middle ∧ files.Leads middle more last := by
  induction names generalizing route with
  | nil => exact ⟨route, .done route, leads⟩
  | cons name rest ih =>
      rcases leads.of_cons with ⟨next, entered, later⟩ | ⟨nothing, -⟩
      · obtain ⟨middle, front, back⟩ := ih later
        exact ⟨middle, .step entered front, back⟩
      · obtain ⟨rfl, rfl⟩ := List.append_eq_nil_iff.1 nothing
        exact ⟨last, leads, .done last⟩

theorem eq_append (proper : ∀ name ∈ names, name ≠ "." ∧ name ≠ "..")
    (leads : files.Leads route names last) : last = route ++ names := by
  induction leads with
  | done route => exact (List.append_nil _).symm
  | step entered later ih =>
      rw [List.forall_mem_cons] at proper
      obtain ⟨-, -, rfl⟩ := (enter_eq_some_iff proper.1).1 entered
      rw [ih proper.2, List.append_assoc, List.singleton_append]
  | file => rfl

theorem unique {other : Route} (leads : files.Leads route names last)
    (again : files.Leads route names other) : last = other := by
  have reached := leads.follow_eq 0
  rw [again.follow_eq 0, Except.ok.injEq] at reached
  exact reached.symm

end Leads

section Locating

theorem find_eq_ok_iff {directory : Route} {path : Pathname} {entry : Entry} :
    files.find directory path = .ok entry ↔
      ∃ route, files.locate directory path = .ok route ∧ files.root.at? route = some entry := by
  rw [find]
  cases files.locate directory path with
  | error reason => simp [bind, Except.bind]
  | ok route =>
      simp only [bind, Except.bind, Except.ok.injEq, exists_eq_left']
      cases files.root.at? route <;> simp

variable (plain : files.root.Plain) {directory route last : Route} {path : Pathname}

include plain

theorem locate_eq_ok_iff : files.locate directory path = .ok route ↔
    path.text.isEmpty = false ∧ path.isTooLong = false ∧
      files.Leads (if path.isAbsolute then [] else directory) (stepsOf path) route := by
  have follows := @follow_eq_ok_iff files plain maxLinks
  rw [locate, ← follows]
  cases path.text.isEmpty <;> cases path.isTooLong <;> simp

theorem locate_of_leads {names : Route}
    (proper : path.text.isEmpty = false ∧ path.isTooLong = false ∧ path.isAbsolute = false)
    (steps : stepsOf path = names) (leads : files.Leads directory names route) :
    files.locate directory path = .ok route := by
  refine (locate_eq_ok_iff plain).2 ⟨proper.1, proper.2.1, ?_⟩
  rwa [proper.2.2, steps, if_neg Bool.false_ne_true]

theorem leads_of_locate (located : files.locate directory path = .ok route) :
    files.Leads (if .root ∈ path.parts then [] else directory)
      (path.parts.filterMap Part.move?) route := by
  obtain ⟨-, -, leads⟩ := (locate_eq_ok_iff plain).1 located
  rw [← Pathname.stepsOf_filter]
  simp only [Pathname.root_mem_parts]
  exact leads.without_dots

theorem eq_of_parts_eq {other : Pathname} (same : path.parts = other.parts)
    (located : files.locate directory path = .ok route)
    (again : files.locate directory other = .ok last) : route = last := by
  have leads := leads_of_locate plain located
  rw [same] at leads
  exact leads.unique (leads_of_locate plain again)

/-- Names at the end of a path lead down from where what comes before them leads. -/
theorem exists_split_of_locate {base : List Part} {names : Route}
    (parts : path.parts = base ++ names.map .named)
    (located : files.locate directory path = .ok route) : ∃ middle, route = middle ++ names ∧
      files.Leads (if .root ∈ base then [] else directory) (base.filterMap Part.move?) middle := by
  have leads := leads_of_locate plain located
  have proper : ∀ name ∈ names, name ≠ "." ∧ name ≠ ".." := by
    intro name member
    apply @Pathname.proper_of_named_mem path
    rw [parts]
    exact List.mem_append_right _ (List.mem_map_of_mem member)
  have root : .root ∈ path.parts ↔ .root ∈ base := by simp [parts]
  simp only [root] at leads
  rw [parts, List.filterMap_append, Part.move?_named] at leads
  obtain ⟨middle, front, back⟩ := leads.exists_split
  exact ⟨middle, back.eq_append proper, front⟩

theorem eq_append_of_parts {other : Pathname} {below : Route}
    (parts : other.parts = path.parts ++ below.map .named)
    (reached : files.locate directory path = .ok route)
    (located : files.locate directory other = .ok last) : last = route ++ below := by
  obtain ⟨middle, same, front⟩ := exists_split_of_locate plain parts located
  rw [same, front.unique (leads_of_locate plain reached)]

end Locating

end FileSystem

end NameLint.Files
