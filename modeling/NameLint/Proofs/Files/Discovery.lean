import NameLint.Files.Discovery
import NameLint.Proofs.Fault
import NameLint.Proofs.Files.RawText

/-!
# What is found

A search succeeds when every argument stands for a file or a directory. What it finds comes in the
order of paths.
-/

namespace NameLint.Files

set_option autoImplicit false

section Order

instance : Std.TransCmp Part.compare := by
  unfold Part.compare
  infer_instance

instance : Std.LawfulEqCmp Part.compare where
  eq_of_compare := by
    intro part other same
    rw [Part.compare, compareLex_eq_eq, compareOn, compareOn] at same
    obtain ⟨ranks, labels⟩ := same
    rw [Std.LawfulEqCmp.compare_eq_iff_eq] at ranks labels
    cases part <;> cases other <;> simp_all [Part.rank, Part.label]

def Pathname.ComesBefore (path other : Pathname) : Prop :=
  path.compare other = .lt

instance (path other : Pathname) : Decidable (path.ComesBefore other) :=
  inferInstanceAs (Decidable (_ = _))

theorem Pathname.compare_eq_iff {path other : Pathname} :
    path.compare other = .eq ↔ path.parts = other.parts :=
  @Std.LawfulEqCmp.compare_eq_iff_eq _ (List.compareLex Part.compare) _ _ _

theorem Pathname.ComesBefore.trans {first second third : Pathname} (left : first.ComesBefore second)
    (right : second.ComesBefore third) : first.ComesBefore third :=
  @Std.TransCmp.lt_trans _ (List.compareLex Part.compare) _ _ _ _ left right

theorem Pathname.comesBefore_iff {path other : Pathname} :
    path.ComesBefore other ↔ path.precedes other ∧ path.parts ≠ other.parts := by
  rw [ComesBefore, precedes, ne_eq, ← compare_eq_iff]
  cases path.compare other <;> simp

theorem Pathname.precedes_trans {first second third : Pathname} (left : first.precedes second)
    (right : second.precedes third) : first.precedes third :=
  @Std.TransCmp.isLE_trans _ (List.compareLex Part.compare) _ _ _ _ left right

theorem Pathname.precedes_total (path other : Pathname) :
    (path.precedes other || other.precedes path) := by
  have swapped : path.compare other = (other.compare path).swap :=
    @Std.OrientedCmp.eq_swap _ (List.compareLex Part.compare) _ _ _
  rw [precedes, precedes, swapped]
  cases other.compare path <;> rfl

theorem after_sublist (last : Pathname) (paths : List Pathname) :
    (dropRepeats.after last paths).Sublist paths := by
  induction paths generalizing last with
  | nil => exact .slnil
  | cons path rest ih =>
      rw [dropRepeats.after]
      split
      · exact (ih last).cons path
      · exact (ih path).cons_cons path

theorem dropRepeats_sublist (paths : List Pathname) : (dropRepeats paths).Sublist paths := by
  cases paths with
  | nil => exact .slnil
  | cons path rest => exact (after_sublist path rest).cons_cons path

theorem after_ascends {last : Pathname} {paths : List Pathname}
    (sorted : (last :: paths).Pairwise fun path other => path.precedes other) :
    (last :: dropRepeats.after last paths).Pairwise Pathname.ComesBefore := by
  induction paths generalizing last with
  | nil => exact List.pairwise_singleton _ _
  | cons path rest ih =>
      obtain ⟨first, later⟩ := List.pairwise_cons.1 sorted
      rw [dropRepeats.after]
      split
      · exact ih (sorted.sublist ((List.sublist_cons_self path rest).cons_cons last))
      · next differ =>
          have apart : last.parts ≠ path.parts := by simpa [Pathname.agrees] using differ
          have next : last.ComesBefore path :=
            Pathname.comesBefore_iff.2 ⟨first path List.mem_cons_self, apart⟩
          refine .cons ?_ (ih later)
          rw [List.forall_mem_cons]
          exact ⟨next, fun other kept => next.trans (List.rel_of_pairwise_cons (ih later) kept)⟩

theorem exists_kept_after {last path : Pathname} {paths : List Pathname}
    (member : path ∈ last :: paths) :
    ∃ kept ∈ last :: dropRepeats.after last paths, kept.parts = path.parts := by
  induction paths generalizing last with
  | nil => exact ⟨path, member, rfl⟩
  | cons own rest ih =>
      rw [dropRepeats.after]
      split
      · next same =>
          rcases List.mem_cons.1 member with rfl | later
          · exact ⟨path, List.mem_cons_self, rfl⟩
          · rcases List.mem_cons.1 later with rfl | later
            · exact ⟨last, List.mem_cons_self, by simpa [Pathname.agrees] using same⟩
            · exact ih (List.mem_cons_of_mem last later)
      · rcases List.mem_cons.1 member with rfl | later
        · exact ⟨path, List.mem_cons_self, rfl⟩
        · obtain ⟨kept, own, same⟩ := ih later
          exact ⟨kept, List.mem_cons_of_mem last own, same⟩

theorem dropRepeats_ascends {paths : List Pathname}
    (sorted : paths.Pairwise fun path other => path.precedes other) :
    (dropRepeats paths).Pairwise Pathname.ComesBefore := by
  cases paths with
  | nil => exact .nil
  | cons path rest => exact after_ascends sorted

theorem exists_mem_dropRepeats_iff {paths : List Pathname} {parts : List Part} :
    (∃ kept ∈ dropRepeats paths, kept.parts = parts) ↔ ∃ path ∈ paths, path.parts = parts := by
  constructor
  · rintro ⟨path, kept, same⟩
    exact ⟨path, (dropRepeats_sublist paths).mem kept, same⟩
  · rintro ⟨path, member, rfl⟩
    cases paths with
    | nil => cases member
    | cons first rest => exact exists_kept_after member

end Order

section Search

variable {files : FileSystem} {directory : Route}

/-- The path leads to a file or a directory. -/
def IsPresent (files : FileSystem) (directory : Route) (path : Pathname) : Prop :=
  (∃ content, files.find directory path = .ok (.file content)) ∨
    ∃ entries, files.find directory path = .ok (.directory entries)

theorem exists_expand_iff {argument : Pathname} :
    (∃ found, expand files directory argument = .ok found) ↔ IsPresent files directory argument := by
  rw [expand, IsPresent]
  cases files.find directory argument with
  | error reason => simp
  | ok entry => cases entry <;> simp

theorem exists_discover_iff {arguments : List Pathname} :
    (∃ paths, discover files directory arguments = .ok paths) ↔
      ∀ argument ∈ arguments, IsPresent files directory argument := by
  simp only [← exists_expand_iff, ← exists_mapM_eq_ok_iff]
  constructor
  · rintro ⟨paths, done⟩
    obtain ⟨found, expanded, -⟩ := exists_of_bind_eq_ok done
    exact ⟨found, expanded⟩
  · rintro ⟨found, expanded⟩
    exact ⟨_, by simp only [discover, expanded, bind, Except.bind]; rfl⟩

theorem exists_discover_error_iff {arguments : List Pathname} :
    (∃ error, discover files directory arguments = .error error) ↔
      ∃ argument ∈ arguments, ¬ IsPresent files directory argument := by
  have able := @exists_discover_iff files directory arguments
  cases result : discover files directory arguments with
  | error error =>
      simp only [result, reduceCtorEq, exists_false, false_iff] at able
      simpa using able
  | ok paths =>
      simp only [result, Except.ok.injEq, exists_eq', true_iff] at able
      simpa using able

variable {arguments paths : List Pathname}
  (done : discover files directory arguments = .ok paths)

include done

theorem discover_ascends : paths.Pairwise Pathname.ComesBefore := by
  obtain ⟨found, -, same⟩ := exists_of_bind_eq_ok done
  cases same
  exact dropRepeats_ascends (@List.pairwise_mergeSort _ Pathname.precedes
    (fun _ _ _ => Pathname.precedes_trans) Pathname.precedes_total found.flatten)

theorem discover_sorted : paths.Pairwise fun path other => path.precedes other :=
  (discover_ascends done).imp fun before => (Pathname.comesBefore_iff.1 before).1

theorem exists_expand_of_mem_discover {path : Pathname} (member : path ∈ paths) :
    ∃ argument ∈ arguments, ∃ found,
      expand files directory argument = .ok found ∧ path ∈ found := by
  obtain ⟨found, expanded, same⟩ := exists_of_bind_eq_ok done
  cases same
  have among := (dropRepeats_sublist _).mem member
  rw [List.mem_mergeSort, List.mem_flatten] at among
  obtain ⟨own, brought, among⟩ := among
  obtain ⟨argument, given, expanded⟩ := (mem_iff_of_mapM_eq_ok expanded).1 brought
  exact ⟨argument, given, own, expanded, among⟩

theorem exists_mem_discover_iff {parts : List Part} :
    (∃ path ∈ paths, path.parts = parts) ↔ ∃ argument ∈ arguments, ∃ found,
      expand files directory argument = .ok found ∧ ∃ path ∈ found, path.parts = parts := by
  constructor
  · rintro ⟨path, member, same⟩
    obtain ⟨argument, given, found, expanded, among⟩ := exists_expand_of_mem_discover done member
    exact ⟨argument, given, found, expanded, path, among, same⟩
  · rintro ⟨argument, given, own, expanded, path, among, same⟩
    obtain ⟨found, whole, kept⟩ := exists_of_bind_eq_ok done
    cases kept
    have brought := (mem_iff_of_mapM_eq_ok whole).2 ⟨argument, given, expanded⟩
    refine exists_mem_dropRepeats_iff.2 ⟨path, ?_, same⟩
    rw [List.mem_mergeSort, List.mem_flatten]
    exact ⟨own, brought, among⟩

end Search

end NameLint.Files
