import Mathlib.Data.List.Basic
import Mathlib.Data.List.TakeWhile
import NameLint.Files.FileSystem
import NameLint.Proofs.Files.RawText

/-!
# Paths of entries

The parts of a path tell the steps that are taken to follow it. The path of an entry has the parts
that the path of its directory has and one more, whichever way that is written.
-/

namespace NameLint.Files

set_option autoImplicit false

/-- A name that a directory can hold. -/
def IsEntryName (name : RawText) : Prop :=
  name ≠ "" ∧ name ≠ "." ∧ name ≠ ".." ∧ slash ∉ name.bytes

instance (name : RawText) : Decidable (IsEntryName name) :=
  inferInstanceAs (Decidable (_ ∧ _))

def Part.move? : Part → Option RawText
  | .up => some ".."
  | .named name => some name
  | _ => none

theorem Part.move?_named (names : Route) :
    (names.map Part.named).filterMap Part.move? = names := by
  have own : Part.move? ∘ Part.named = some := rfl
  rw [List.filterMap_map, own, List.filterMap_some]

namespace Pathname

section Segments

theorem segmentsFrom_append (passed front back : List UInt8) :
    segmentsFrom passed (front ++ slash :: back) =
      segmentsFrom passed front ++ segmentsFrom [] back := by
  induction front generalizing passed with
  | nil => rfl
  | cons byte front ih =>
      rw [List.cons_append, segmentsFrom, segmentsFrom]
      split
      · rw [ih, List.cons_append]
      · exact ih (byte :: passed)

theorem segmentsFrom_plain {bytes : List UInt8} (plain : slash ∉ bytes) (passed : List UInt8) :
    segmentsFrom passed bytes = [⟨passed.reverse ++ bytes⟩] := by
  induction bytes generalizing passed with
  | nil => rw [segmentsFrom, List.append_nil]
  | cons byte bytes ih =>
      rw [List.mem_cons, not_or] at plain
      rw [segmentsFrom, if_neg (Ne.symm plain.1), ih plain.2, List.reverse_cons, List.append_assoc,
        List.singleton_append]

theorem segmentsFrom_ne_nil (passed bytes : List UInt8) : segmentsFrom passed bytes ≠ [] := by
  induction bytes generalizing passed with
  | nil => exact List.cons_ne_nil _ _
  | cons byte bytes ih =>
      rw [segmentsFrom]
      split
      · exact List.cons_ne_nil _ _
      · exact ih (byte :: passed)

end Segments

section Extension

variable {name extension : RawText}

theorem exists_stem_of_extensionOf (found : extensionOf name = some extension) :
    dot ∉ extension.bytes ∧ ∃ stem ≠ [], name.bytes = stem ++ dot :: extension.bytes := by
  rw [extensionOf, Option.ite_none_right_eq_some, Option.some.injEq] at found
  obtain ⟨size, rfl⟩ := found
  have whole := @List.takeWhile_append_dropWhile _ (· != dot) name.bytes.reverse
  have separator := List.head?_dropWhile_not (· != dot) name.bytes.reverse
  have last : dot ∉ name.bytes.reverse.takeWhile (· != dot) := fun member => by
    simpa using List.mem_takeWhile_imp member
  generalize name.bytes.reverse.takeWhile (· != dot) = front at whole last size
  generalize name.bytes.reverse.dropWhile (· != dot) = back at whole separator
  have bytes : name.bytes = back.reverse ++ front.reverse := by
    rw [← List.reverse_append, whole, List.reverse_reverse]
  rw [RawText.size, bytes, List.length_append, List.length_reverse, List.length_reverse] at size
  refine ⟨by simpa using last, ?_⟩
  cases back with
  | nil =>
      rw [List.length_nil] at size
      omega
  | cons byte stem =>
      have same : byte = dot := by simpa using separator
      refine ⟨stem.reverse, ?_, ?_⟩
      · intro none
        rw [List.reverse_eq_nil_iff.1 none, List.length_singleton] at size
        omega
      · rw [bytes, same, List.reverse_cons, List.append_assoc]
        rfl

theorem extensionOf_of_bytes_eq {stem : List UInt8} (something : stem ≠ [])
    (plain : dot ∉ extension.bytes) (bytes : name.bytes = stem ++ dot :: extension.bytes) :
    extensionOf name = some extension := by
  have backwards : name.bytes.reverse = extension.bytes.reverse ++ dot :: stem.reverse := by
    simp [bytes]
  have last : name.bytes.reverse.takeWhile (· != dot) = extension.bytes.reverse := by
    rw [backwards, List.takeWhile_append_of_pos, List.takeWhile_cons_of_neg, List.append_nil]
    · simp
    · intro byte member
      have other : byte ≠ dot := fun same => plain (by simpa [same] using member)
      simpa using other
  have size : 0 < stem.length := List.length_pos_iff.2 something
  have longer : extension.bytes.length + 1 < name.size := by
    rw [RawText.size, bytes, List.length_append, List.length_cons]
    omega
  simp only [extensionOf, last, List.reverse_reverse]
  exact if_pos longer

end Extension

section Parts

variable {path : Pathname}

theorem start_cases (path : Pathname) : path.start = [.root] ∧ path.isAbsolute = true ∨
    (path.start = [.here] ∨ path.start = []) ∧ path.isAbsolute = false := by
  rw [start]
  cases path.isAbsolute with
  | true => exact .inl ⟨rfl, rfl⟩
  | false =>
      refine .inr ⟨?_, rfl⟩
      rw [if_neg Bool.false_ne_true]
      split
      · exact .inl rfl
      · exact .inr rfl

theorem ofSegment_cases (segment : RawText) :
    segment = ".." ∧ Part.ofSegment segment = .up ∨
      segment ≠ ".." ∧ Part.ofSegment segment = .named segment := by
  by_cases up : segment = ".."
  · exact .inl ⟨up, if_pos up⟩
  · exact .inr ⟨up, if_neg up⟩

theorem move?_ofSegment (segment : RawText) : (Part.ofSegment segment).move? = some segment := by
  rcases ofSegment_cases segment with ⟨rfl, kind⟩ | ⟨-, kind⟩
  · rfl
  · rw [kind]
    rfl

theorem root_mem_parts : .root ∈ path.parts ↔ path.isAbsolute := by
  have proper (segment : RawText) : Part.ofSegment segment ≠ .root := by
    rcases ofSegment_cases segment with ⟨-, kind⟩ | ⟨-, kind⟩ <;> simp [kind]
  rcases start_cases path with ⟨start, absolute⟩ | ⟨start | start, absolute⟩ <;>
    simp [parts, start, absolute, proper]

theorem proper_of_named_mem {name : RawText} (member : .named name ∈ path.parts) :
    name ≠ "." ∧ name ≠ ".." := by
  rw [parts, List.mem_append] at member
  rcases member with among | among
  · rcases start_cases path with ⟨start, -⟩ | ⟨start | start, -⟩ <;> simp [start] at among
  · obtain ⟨segment, kept, same⟩ := List.mem_map.1 among
    rcases ofSegment_cases segment with ⟨-, kind⟩ | ⟨proper, kind⟩
    · rw [kind] at same
      cases same
    · rw [kind, Part.named.injEq] at same
      subst same
      have busy : isIdle segment = false := by simpa using (List.mem_filter.1 kept).2
      refine ⟨?_, proper⟩
      rintro rfl
      cases busy

/-- Dots apart, a path is followed step by step as its parts say. -/
theorem stepsOf_filter (path : Pathname) :
    (FileSystem.stepsOf path).filter (· != ("." : RawText)) = path.parts.filterMap Part.move? := by
  have none : path.start.filterMap Part.move? = [] := by
    rcases start_cases path with ⟨start, -⟩ | ⟨start | start, -⟩ <;> rw [start] <;> rfl
  have moves (segments : Route) :
      (segments.map Part.ofSegment).filterMap Part.move? = segments := by
    simp [List.filterMap_map, move?_ofSegment]
  have busy : ((path.segments.filter (!·.isEmpty)).filter (· != ("." : RawText))) =
      path.segments.filter (!isIdle ·) := by
    rw [List.filter_filter]
    congr 1
    funext segment
    simp [isIdle, Bool.and_comm, bne]
  rw [parts, List.filterMap_append, none, moves, List.nil_append, ← busy, FileSystem.stepsOf]
  split
  · simp
  · rfl

end Parts

section Join

/-- A slash comes before the name, unless the path is empty or ends in one. -/
theorem join_cases (path : Pathname) (name : RawText) :
    path.text.bytes = [] ∧ (path.join name).text.bytes = name.bytes ∨
      (∃ front, path.text.bytes = front ++ [slash] ∧
        (path.join name).text.bytes = front ++ slash :: name.bytes) ∨
      path.text.bytes ≠ [] ∧
        (path.join name).text.bytes = path.text.bytes ++ slash :: name.bytes := by
  by_cases empty : path.text.bytes = []
  · refine .inl ⟨empty, ?_⟩
    simp [join, RawText.isEmpty, empty]
  · have solid : path.text.isEmpty = false := by simpa [RawText.isEmpty] using empty
    by_cases ends : path.text.bytes.getLast? = some slash
    · obtain ⟨front, shape⟩ := List.getLast?_eq_some_iff.1 ends
      refine .inr (.inl ⟨front, shape, ?_⟩)
      simp [join, shape]
    · refine .inr (.inr ⟨empty, ?_⟩)
      simp [join, solid, ends]

theorem size_le_size_join (path : Pathname) (name : RawText) :
    path.text.size ≤ (path.join name).text.size := by
  rw [RawText.size, RawText.size]
  rcases join_cases path name with ⟨empty, -⟩ | ⟨front, shape, joined⟩ | ⟨-, joined⟩
  · simp [empty]
  · simp [shape, joined]
  · simp [joined]

variable {name : RawText} (named : IsEntryName name) (path : Pathname)

include named

theorem segmentsFrom_entryName : segmentsFrom [] name.bytes = [name] :=
  segmentsFrom_plain named.2.2.2 []

theorem segments_join :
    (path.join name).segments = path.segments ++ [name] ∨
      ∃ front, path.segments = front ++ [("" : RawText)] ∧
        (path.join name).segments = front ++ [name] := by
  have own := segmentsFrom_entryName named
  rcases join_cases path name with ⟨empty, joined⟩ | ⟨front, shape, joined⟩ | ⟨-, joined⟩
  · refine .inr ⟨[], ?_, ?_⟩
    · rw [segments, empty]
      rfl
    · rw [segments, joined, own]
      rfl
  · refine .inr ⟨segmentsFrom [] front, ?_, ?_⟩
    · rw [segments, shape, segmentsFrom_append]
      rfl
    · rw [segments, joined, segmentsFrom_append, own]
  · left
    rw [segments, joined, segmentsFrom_append, own, segments]

theorem isAbsolute_join : (path.join name).isAbsolute = path.isAbsolute := by
  rw [isAbsolute, isAbsolute]
  rcases join_cases path name with ⟨empty, joined⟩ | ⟨front, shape, joined⟩ | ⟨solid, joined⟩
  · have relative : name.bytes.head? ≠ some slash := fun starts =>
      named.2.2.2 (List.mem_of_head? starts)
    rw [empty, joined]
    simpa using relative
  · rw [shape, joined]
    cases front <;> rfl
  · rw [joined, List.head?_append_of_ne_nil _ solid]

theorem start_join : (path.join name).start = path.start := by
  have other : ("" : RawText) ≠ "." := by decide
  have here : (path.join name).segments.head? = some ("." : RawText) ↔
      path.segments.head? = some ("." : RawText) := by
    rcases segments_join named path with joined | ⟨front, shape, joined⟩
    · have some : path.segments ≠ [] := segmentsFrom_ne_nil _ _
      rw [joined, List.head?_append_of_ne_nil _ some]
    · rw [joined, shape]
      cases front with
      | nil => simp [named.2.1, other]
      | cons first front => rfl
  rw [start, start, isAbsolute_join named]
  simp only [here]

theorem parts_join : (path.join name).parts = path.parts ++ [.named name] := by
  have own : isIdle name = false := by
    have solid : name.isEmpty = false := by
      rw [RawText.isEmpty, List.isEmpty_eq_false_iff]
      rintro none
      exact named.1 (congrArg RawText.mk none)
    simp [isIdle, solid, named.2.1]
  have kept : Part.ofSegment name = .named name := if_neg named.2.2.1
  have nothing : isIdle "" = true := rfl
  rw [parts, parts, start_join named, List.append_assoc]
  congr 1
  rcases segments_join named path with joined | ⟨front, shape, joined⟩
  · simp [joined, own, kept]
  · simp [joined, shape, own, nothing, kept]

end Join

def joinAll (path : Pathname) (below : Route) : Pathname :=
  below.foldl join path

theorem size_le_size_joinAll (path : Pathname) (below : Route) :
    path.text.size ≤ (path.joinAll below).text.size := by
  induction below generalizing path with
  | nil => exact Nat.le_refl _
  | cons name below ih => exact Nat.le_trans (size_le_size_join path name) (ih (path.join name))

section JoinAll

variable {below : Route} (named : ∀ name ∈ below, IsEntryName name) (path : Pathname)

include named

theorem parts_joinAll : (path.joinAll below).parts = path.parts ++ below.map .named := by
  induction below generalizing path with
  | nil => exact (List.append_nil _).symm
  | cons name below ih =>
      rw [List.forall_mem_cons] at named
      rw [joinAll, List.foldl_cons, ← joinAll, ih named.2, parts_join named.1, List.append_assoc]
      rfl

end JoinAll

end Pathname

end NameLint.Files
