import Mathlib.Data.List.TakeWhile
import NameLint.Naming.CamelCase

/-!
# Names in camel case

Which names need the rewrite, said without the functions that split and raise them, and what the
rewrite leaves behind: the markers as they were around a core that has no separator. Raising a
character never brings a separator back, which is a fact about the upper-case data.
-/

namespace NameLint.Naming

open NameLint.Text

set_option autoImplicit false

theorem isMarker_iff {c : Char} : isMarker c ↔ c = '_' := by
  simp [isMarker]

/-- A name whose core, the part between the markers, has a separator and is not in capitals
throughout. -/
def NeedsCamelCase (name : String) : Prop :=
  ∃ lead core trail : List Char, name.toList = lead ++ core ++ trail ∧
    (∀ c ∈ lead, c = '_') ∧ (∀ c ∈ trail, c = '_') ∧
    core.head? ≠ some '_' ∧ core.getLast? ≠ some '_' ∧
    '_' ∈ core ∧ uppercase (String.ofList core) ≠ String.ofList core

section Upper

private theorem ofNat_eq_marker {code : Nat} (same : Char.ofNat code = '_') : code = 95 := by
  have codes := congrArg Char.toNat same
  by_cases valid : code.isValidChar
  · rw [Char.ofNat, dif_pos valid] at codes
    exact codes
  · rw [Char.ofNat, dif_neg valid] at codes
    exact absurd codes (by decide)

private theorem runs_avoid_marker :
    ∀ run ∈ uppercaseRuns, 95 < run.image ∨ run.image + (run.last - run.first) < 95 := by
  decide +kernel

private theorem expansions_avoid_marker : ∀ entry ∈ uppercaseExpansions, 95 ∉ entry.2 := by
  decide +kernel

theorem marker_not_mem_uppercaseChar {c : Char} (other : c ≠ '_') : '_' ∉ uppercaseChar c := by
  intro member
  unfold uppercaseChar at member
  split at member
  · next codes found =>
      obtain ⟨code, present, same⟩ := List.mem_map.1 member
      obtain ⟨earlier, later, entries, -⟩ := List.lookup_eq_some_iff.1 found
      exact expansions_avoid_marker (c.toNat, codes) (by simp [entries])
        (ofNat_eq_marker same ▸ present)
  · split at member
    · next run found =>
        have covered := List.find?_some found
        have avoids := runs_avoid_marker run (List.mem_of_find?_eq_some found)
        have image := ofNat_eq_marker (List.mem_singleton.1 member).symm
        simp only [CaseRun.covers, Bool.and_eq_true, decide_eq_true_eq] at covered
        omega
    · exact other (List.mem_singleton.1 member).symm

end Upper

section Parts

theorem toList_splitMarkers (name : String) :
    name.toList = (splitMarkers name).lead.toList ++ (splitMarkers name).core.toList ++
      (splitMarkers name).trail.toList := by
  simp only [splitMarkers, String.toList_ofList, List.append_assoc]
  rw [← List.reverse_append, List.takeWhile_append_dropWhile, List.reverse_reverse,
    List.takeWhile_append_dropWhile]

theorem eq_marker_of_mem_lead (name : String) {c : Char}
    (member : c ∈ (splitMarkers name).lead.toList) : c = '_' := by
  simp only [splitMarkers, String.toList_ofList] at member
  exact isMarker_iff.1 (List.mem_takeWhile_imp member)

theorem eq_marker_of_mem_trail (name : String) {c : Char}
    (member : c ∈ (splitMarkers name).trail.toList) : c = '_' := by
  simp only [splitMarkers, String.toList_ofList, List.mem_reverse] at member
  exact isMarker_iff.1 (List.mem_takeWhile_imp member)

private theorem head_dropWhile (text : List Char) :
    (text.dropWhile isMarker).head? ≠ some '_' := by
  intro marker
  have refused := List.head?_dropWhile_not isMarker text
  rw [marker] at refused
  exact absurd refused (by decide)

theorem getLast_core (name : String) :
    (splitMarkers name).core.toList.getLast? ≠ some '_' := by
  simp only [splitMarkers, String.toList_ofList, List.getLast?_reverse]
  exact head_dropWhile _

theorem head_core_trail (name : String) :
    ((splitMarkers name).core.toList ++ (splitMarkers name).trail.toList).head? ≠ some '_' := by
  have whole : name.toList.dropWhile isMarker =
      (splitMarkers name).core.toList ++ (splitMarkers name).trail.toList := by
    simp only [splitMarkers, String.toList_ofList]
    rw [← List.reverse_append, List.takeWhile_append_dropWhile, List.reverse_reverse]
  rw [← whole]
  exact head_dropWhile name.toList

theorem head_core (name : String) : (splitMarkers name).core.toList.head? ≠ some '_' := by
  intro marker
  apply head_core_trail name
  rw [List.head?_append, marker]
  rfl

/-- A core that begins and ends without a marker is found between any markers. -/
theorem splitMarkers_append {lead core trail : List Char} (present : core ≠ [])
    (leads : ∀ c ∈ lead, c = '_') (trails : ∀ c ∈ trail, c = '_')
    (head : core.head? ≠ some '_') (last : core.getLast? ≠ some '_') :
    splitMarkers (String.ofList (lead ++ core ++ trail)) =
      ⟨String.ofList lead, String.ofList core, String.ofList trail⟩ := by
  have leadMarkers : ∀ c ∈ lead, isMarker c := fun c member => isMarker_iff.2 (leads c member)
  have trailMarkers : ∀ c ∈ trail.reverse, isMarker c := fun c member =>
    isMarker_iff.2 (trails c (List.mem_reverse.1 member))
  obtain ⟨first, rest, rfl⟩ := List.exists_cons_of_ne_nil present
  have firstKept : isMarker first = false := by
    simpa [isMarker] using head
  have front : (lead ++ (first :: rest) ++ trail).dropWhile isMarker = first :: rest ++ trail := by
    rw [List.append_assoc, List.dropWhile_append_of_pos leadMarkers]
    exact List.dropWhile_cons_of_neg (by simp [firstKept])
  have front' : (lead ++ (first :: rest) ++ trail).takeWhile isMarker = lead := by
    rw [List.append_assoc, List.takeWhile_append_of_pos leadMarkers]
    simp [firstKept]
  obtain ⟨final, before, backwards⟩ :=
    List.exists_cons_of_ne_nil (l := (first :: rest).reverse) (by simp)
  have finalKept : isMarker final = false := by
    rw [← List.head?_reverse, backwards] at last
    simpa [isMarker] using last
  have back : (first :: rest ++ trail).reverse.dropWhile isMarker = (first :: rest).reverse := by
    rw [List.reverse_append, List.dropWhile_append_of_pos trailMarkers, backwards]
    exact List.dropWhile_cons_of_neg (by simp [finalKept])
  have back' : (first :: rest ++ trail).reverse.takeWhile isMarker = trail.reverse := by
    rw [List.reverse_append, List.takeWhile_append_of_pos trailMarkers, backwards]
    simp [finalKept]
  simp only [splitMarkers, String.toList_ofList, front, front', back, back', List.reverse_reverse]

end Parts

theorem isUnderscored_core_iff {name : String} :
    isUnderscored (splitMarkers name).core ↔ NeedsCamelCase name := by
  have test (core : String) : isUnderscored core ↔ '_' ∈ core.toList ∧ uppercase core ≠ core := by
    simp only [isUnderscored, Bool.and_eq_true, List.any_eq_true, bne_iff_ne, isMarker_iff,
      exists_eq_right]
    rw [ne_comm]
  rw [test]
  constructor
  · rintro ⟨separated, mixed⟩
    refine ⟨_, _, _, toList_splitMarkers name, fun c => eq_marker_of_mem_lead name,
      fun c => eq_marker_of_mem_trail name, head_core name, getLast_core name, separated, ?_⟩
    rwa [String.ofList_toList]
  · rintro ⟨lead, core, trail, shape, leads, trails, head, last, separated, mixed⟩
    have parts := splitMarkers_append (List.ne_nil_of_mem separated) leads trails head last
    rw [← shape, String.ofList_toList] at parts
    rw [parts]
    exact ⟨by simpa using separated, mixed⟩

section Join

theorem marker_not_mem_joinWords (raise : Bool) (text : List Char) :
    '_' ∉ joinWords raise text := by
  induction text generalizing raise with
  | nil => simp [joinWords]
  | cons c rest ih =>
      unfold joinWords
      split
      · exact ih true
      · next kept =>
          have other : c ≠ '_' := fun same => kept (isMarker_iff.2 same)
          split
          · simp only [List.mem_append, not_or]
            exact ⟨marker_not_mem_uppercaseChar other, ih false⟩
          · simp only [List.mem_cons, not_or]
            exact ⟨Ne.symm other, ih false⟩

theorem joinWords_ne_nil {core : List Char} (present : core ≠ [])
    (head : core.head? ≠ some '_') : joinWords false core ≠ [] := by
  obtain ⟨first, rest, rfl⟩ := List.exists_cons_of_ne_nil present
  have kept : isMarker first = false := by
    simpa [isMarker] using head
  simp [joinWords, kept]

theorem toList_camelCase (name : String) :
    (camelCase name).toList = (splitMarkers name).lead.toList ++
      joinWords false (splitMarkers name).core.toList ++ (splitMarkers name).trail.toList := by
  simp [camelCase]

/-- The rewrite keeps the markers and leaves a core without separators. -/
theorem splitMarkers_camelCase {name : String} (present : (splitMarkers name).core.toList ≠ []) :
    splitMarkers (camelCase name) =
      ⟨(splitMarkers name).lead,
        String.ofList (joinWords false (splitMarkers name).core.toList),
        (splitMarkers name).trail⟩ := by
  have clean := marker_not_mem_joinWords false (splitMarkers name).core.toList
  have parts := splitMarkers_append (joinWords_ne_nil present (head_core name))
    (fun c => eq_marker_of_mem_lead name) (fun c => eq_marker_of_mem_trail name)
    (fun marker => clean (List.mem_of_head? marker))
    (fun marker => clean (List.mem_of_getLast? marker))
  rw [← toList_camelCase, String.ofList_toList] at parts
  simpa only [String.ofList_toList] using parts

example : camelCase "__set_größe_ß_" = "__setGrößeSS_" := by decide

theorem camelCase_of_core_eq_nil {name : String} (none : (splitMarkers name).core.toList = []) :
    camelCase name = name := by
  have whole := toList_splitMarkers name
  rw [none] at whole
  apply String.toList_inj.1
  rw [toList_camelCase, none]
  exact whole.symm

theorem not_isUnderscored_core_camelCase (name : String) :
    isUnderscored (splitMarkers (camelCase name)).core = false := by
  by_cases present : (splitMarkers name).core.toList = []
  · rw [camelCase_of_core_eq_nil present, isUnderscored, present]
    rfl
  · rw [splitMarkers_camelCase present, isUnderscored]
    have clean := marker_not_mem_joinWords false (splitMarkers name).core.toList
    have none : (joinWords false (splitMarkers name).core.toList).any isMarker = false := by
      rw [List.any_eq_false]
      intro c member marker
      exact clean (isMarker_iff.1 marker ▸ member)
    rw [String.toList_ofList, none]
    rfl

theorem camelCase_ne_self {name : String} (underscored : isUnderscored (splitMarkers name).core) :
    camelCase name ≠ name := by
  intro same
  have clean := not_isUnderscored_core_camelCase name
  rw [same, underscored] at clean
  exact absurd clean (by decide)

theorem core_ne_nil {name : String} (underscored : isUnderscored (splitMarkers name).core) :
    (splitMarkers name).core.toList ≠ [] := by
  intro none
  rw [isUnderscored, none] at underscored
  exact absurd underscored (by simp)

theorem camelCase_ne_empty {name : String}
    (underscored : isUnderscored (splitMarkers name).core) : camelCase name ≠ "" := by
  intro none
  have joined := joinWords_ne_nil (core_ne_nil underscored) (head_core name)
  have parts := toList_camelCase name
  rw [none] at parts
  have pieces := List.append_eq_nil_iff.1 parts.symm
  exact joined (List.append_eq_nil_iff.1 pieces.1).2

end Join

end NameLint.Naming
