import Mathlib.Data.List.Pairwise
import NameLint.Proofs.Files.Search
import NameLint.Proofs.Files.Write

/-!
# Files that are found once

A search drops a path that is the same as another, part by part. In a plain file system two
arguments come to the same file only when one leads below the other. Then the paths that they give
it are the same if the arguments are spelled alike, and both are kept if not.
-/

namespace NameLint.Files

set_option autoImplicit false

variable {files : FileSystem} {directory : Route}

/-- The argument is the file at the route, or a directory where a search comes to it. -/
def ComesTo (files : FileSystem) (directory : Route) (argument : Pathname) (route : Route) : Prop :=
  ∃ found path, expand files directory argument = .ok found ∧ path ∈ found ∧
    files.locate directory path = .ok route

/-- If one argument leads below the other, it is spelled as that with the names in between. -/
def SpelledAlike (files : FileSystem) (directory : Route) (argument other : Pathname) : Prop :=
  ∀ route below, files.locate directory argument = .ok route →
    files.locate directory other = .ok (route ++ below) →
      other.parts = argument.parts ++ below.map .named

def AllSpelledAlike (files : FileSystem) (directory : Route) (arguments : List Pathname) : Prop :=
  ∀ argument ∈ arguments, ∀ other ∈ arguments,
    (∃ route, ComesTo files directory argument route ∧ ComesTo files directory other route) →
      SpelledAlike files directory argument other

section Place

variable (plain : files.root.Plain)

include plain

theorem exists_names_of_mem_expand {argument path : Pathname} {found : List Pathname}
    (expanded : expand files directory argument = .ok found) (member : path ∈ found) :
    ∃ route names, files.locate directory argument = .ok route ∧
      path.parts = argument.parts ++ names.map .named ∧
      ∀ last, files.locate directory path = .ok last → last = route ++ names := by
  rw [expand] at expanded
  split at expanded
  · next content named =>
      cases expanded
      cases List.mem_singleton.1 member
      obtain ⟨route, located, -⟩ := FileSystem.find_eq_ok_iff.1 named
      refine ⟨route, [], located, (List.append_nil _).symm, fun last again => ?_⟩
      rw [located, Except.ok.injEq] at again
      rw [← again, List.append_nil]
  · next entries named =>
      cases expanded
      obtain ⟨route, located, stands⟩ := FileSystem.find_eq_ok_iff.1 named
      have short := ((FileSystem.locate_eq_ok_iff plain).1 located).2.1
      obtain ⟨folders, file, offers, -, rfl⟩ :=
        exists_offers_of_mem (plain.at? stands) short member
      have parts := offers.parts_joinAll (plain.at? stands) argument
      exact ⟨route, folders ++ [file], located, parts, fun last again =>
        FileSystem.eq_append_of_parts plain parts located again⟩
  · cases expanded

omit plain in
/-- Names that lead from two arguments to the same place make the same paths of them, if the
arguments are spelled alike. -/
theorem parts_eq_of_spelledAlike {argument other : Pathname} {route place : Route}
    {names below : Route} (located : files.locate directory argument = .ok route)
    (stands : files.locate directory other = .ok place) (same : route ++ names = place ++ below)
    (alike : SpelledAlike files directory argument other)
    (back : SpelledAlike files directory other argument) :
    argument.parts ++ names.map .named = other.parts ++ below.map .named := by
  rcases List.append_eq_append_iff.1 same with ⟨between, rfl, rfl⟩ | ⟨between, rfl, rfl⟩
  · rw [alike route between located stands, List.map_append, List.append_assoc]
  · rw [back place between stands located, List.map_append, List.append_assoc]

omit plain in
/-- Names that lead on from a route and from one below it make the same path, so the names in
between make up for the difference. -/
theorem eq_append_of_parts_eq {front back : List Part} {route between names below : Route}
    (same : front ++ names.map .named = back ++ below.map .named)
    (way : route ++ names = route ++ between ++ below) : back = front ++ between.map .named := by
  rw [List.append_assoc] at way
  rw [List.append_cancel_left way, List.map_append, ← List.append_assoc] at same
  exact (List.append_cancel_right same).symm

variable {arguments paths : List Pathname}
  (done : discover files directory arguments = .ok paths)

include done

/-- No two paths that are found lead to the same file, if arguments that come to the same file are
spelled alike. -/
theorem apart_of_allSpelledAlike (alike : AllSpelledAlike files directory arguments) :
    paths.Pairwise (files.Apart directory) := by
  refine (discover_ascends done).imp_of_mem ?_
  intro path other member among before place located again
  obtain ⟨argument, given, found, expanded, own⟩ := exists_expand_of_mem_discover done member
  obtain ⟨second, also, others, opened, mine⟩ := exists_expand_of_mem_discover done among
  obtain ⟨route, names, leads, parts, ends⟩ := exists_names_of_mem_expand plain expanded own
  obtain ⟨start, below, begins, pieces, closes⟩ := exists_names_of_mem_expand plain opened mine
  have first : ComesTo files directory argument place := ⟨found, path, expanded, own, located⟩
  have last : ComesTo files directory second place := ⟨others, other, opened, mine, again⟩
  have meets : route ++ names = start ++ below :=
    (ends place located).symm.trans (closes place again)
  have same := parts_eq_of_spelledAlike leads begins meets
    (alike argument given second also ⟨place, first, last⟩)
    (alike second also argument given ⟨place, last, first⟩)
  rw [← parts, ← pieces] at same
  exact (Pathname.comesBefore_iff.1 before).2 same

theorem exists_found_of_mem_expand
    (followed : ∀ path ∈ paths, ∃ route, files.locate directory path = .ok route)
    {argument path : Pathname} (given : argument ∈ arguments) {found : List Pathname}
    (expanded : expand files directory argument = .ok found) (own : path ∈ found) {place : Route}
    (located : files.locate directory path = .ok place) :
    ∃ other ∈ paths, other.parts = path.parts ∧ files.locate directory other = .ok place := by
  obtain ⟨other, member, same⟩ := (exists_mem_discover_iff done).2
    ⟨argument, given, found, expanded, path, own, rfl⟩
  obtain ⟨route, leads⟩ := followed other member
  exact ⟨other, member, same, FileSystem.eq_of_parts_eq plain same leads located ▸ leads⟩

/-- Arguments that come to the same file are spelled alike, if no two paths lead to the same file
and all can be followed. -/
theorem allSpelledAlike_of_apart
    (followed : ∀ path ∈ paths, ∃ route, files.locate directory path = .ok route)
    (apart : paths.Pairwise (files.Apart directory)) :
    AllSpelledAlike files directory arguments := by
  rintro argument given second also
    ⟨place, ⟨found, path, expanded, own, located⟩, ⟨others, other, opened, mine, again⟩⟩
  intro route between leads stands
  obtain ⟨start, names, begins, parts, ends⟩ := exists_names_of_mem_expand plain expanded own
  obtain ⟨middle, below, goes, pieces, closes⟩ := exists_names_of_mem_expand plain opened mine
  obtain ⟨first, member, same, here⟩ :=
    exists_found_of_mem_expand plain done followed given expanded own located
  obtain ⟨last, among, alike, there⟩ :=
    exists_found_of_mem_expand plain done followed also opened mine again
  have one : first = last := by
    by_contra differ
    have symmetric : Std.Symm (files.Apart directory) := ⟨fun _ _ => FileSystem.Apart.symm⟩
    exact apart.forall member among differ place here there
  have whole : argument.parts ++ names.map .named = second.parts ++ below.map .named := by
    rw [← parts, ← pieces, ← same, ← alike, one]
  rw [leads, Except.ok.injEq] at begins
  rw [stands, Except.ok.injEq] at goes
  subst begins goes
  exact eq_append_of_parts_eq whole ((ends place located).symm.trans (closes place again))

end Place

theorem allSpelledAlike_of_base (plain : files.root.Plain) {arguments : List Pathname}
    (base : List Part) (spelled : ∀ argument ∈ arguments, ∃ names : Route,
      argument.parts = base ++ names.map .named) : AllSpelledAlike files directory arguments := by
  intro argument given other also _ route below located again
  obtain ⟨names, parts⟩ := spelled argument given
  obtain ⟨pieces, whole⟩ := spelled other also
  -- The names of both lead down from where the base leads.
  obtain ⟨middle, rfl, front⟩ := FileSystem.exists_split_of_locate plain parts located
  obtain ⟨start, same, begins⟩ := FileSystem.exists_split_of_locate plain whole again
  rw [begins.unique front, List.append_assoc] at same
  rw [whole, parts, List.append_assoc, ← List.map_append, List.append_cancel_left same]

end NameLint.Files
