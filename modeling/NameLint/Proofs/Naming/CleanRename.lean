import NameLint.Proofs.Naming.Classify

/-!
# Clean renames

A report always comes with a rename, and the new name is told from the old one without the functions
that made it: the same markers stand around a core that has none, so that the classifier accepts it
wherever it is written. The only fault of the classifier is a span that does not fit the source; it
never asks for a replacement by nothing.
-/

namespace NameLint.Naming

open NameLint.Text

set_option autoImplicit false

section Spelling

/-- A marker stands strictly between two other characters. -/
def HasInnerMarker (name : String) : Prop :=
  ∃ (before : List Char) (left : Char) (between : List Char) (right : Char) (after : List Char),
    name.toList = before ++ left :: (between ++ right :: after) ∧
      left ≠ '_' ∧ '_' ∈ between ∧ right ≠ '_'

/-- Both names have the same markers, and the core of the second one has none inside. -/
def KeepsMarkers (name replacement : String) : Prop :=
  ∃ lead core clean trail : List Char, name.toList = lead ++ core ++ trail ∧
    replacement.toList = lead ++ clean ++ trail ∧
    (∀ c ∈ lead, c = '_') ∧ (∀ c ∈ trail, c = '_') ∧
    core ≠ [] ∧ core.head? ≠ some '_' ∧ core.getLast? ≠ some '_' ∧ clean ≠ [] ∧ '_' ∉ clean

theorem hasInnerMarker_of_core {name : String} {lead core trail : List Char}
    (shape : name.toList = lead ++ core ++ trail) (head : core.head? ≠ some '_')
    (last : core.getLast? ≠ some '_') (separated : '_' ∈ core) : HasInnerMarker name := by
  obtain ⟨left, rest, rfl⟩ := List.exists_cons_of_ne_nil (List.ne_nil_of_mem separated)
  have leftKept : left ≠ '_' := by simpa using head
  have below : '_' ∈ rest := (List.mem_cons.1 separated).resolve_left (Ne.symm leftKept)
  obtain ⟨between, right, rfl⟩ :=
    (List.eq_nil_or_concat' rest).resolve_left (List.ne_nil_of_mem below)
  have rightKept : right ≠ '_' := by
    intro same
    apply last
    rw [← List.cons_append, List.getLast?_concat, same]
  refine ⟨lead, left, between, right, trail, ?_, leftKept, ?_, rightKept⟩
  · rw [shape]
    simp
  · rcases List.mem_append.1 below with inner | final
    · exact inner
    · exact absurd (List.mem_singleton.1 final).symm rightKept

theorem NeedsCamelCase.hasInnerMarker {name : String} (needs : NeedsCamelCase name) :
    HasInnerMarker name := by
  obtain ⟨lead, core, trail, shape, -, -, head, last, separated, -⟩ := needs
  exact hasInnerMarker_of_core shape head last separated

theorem flatMap_uppercaseChar_markers {text : List Char} (markers : ∀ c ∈ text, c = '_') :
    text.flatMap uppercaseChar = text := by
  induction text with
  | nil => rfl
  | cons c rest ih =>
      have raised : uppercaseChar '_' = ['_'] := by decide
      rw [List.flatMap_cons, ih fun other member => markers other (List.mem_cons_of_mem _ member),
        markers c List.mem_cons_self, raised]
      rfl

theorem NeedsCamelCase.uppercase_ne {name : String} (needs : NeedsCamelCase name) :
    uppercase name ≠ name := by
  obtain ⟨lead, core, trail, shape, leads, trails, -, -, -, mixed⟩ := needs
  intro same
  have raised := congrArg String.toList same
  rw [uppercase, String.toList_ofList, shape, List.flatMap_append, List.flatMap_append,
    flatMap_uppercaseChar_markers leads, flatMap_uppercaseChar_markers trails] at raised
  have cores := List.append_cancel_left (List.append_cancel_right raised)
  exact mixed (by rw [uppercase, String.toList_ofList, cores])

theorem keepsMarkers_camelCase {name : String}
    (underscored : isUnderscored (splitMarkers name).core) :
    KeepsMarkers name (camelCase name) :=
  ⟨_, _, _, _, toList_splitMarkers name, toList_camelCase name,
    fun _ => eq_marker_of_mem_lead name, fun _ => eq_marker_of_mem_trail name,
    core_ne_nil underscored, head_core name, getLast_core name,
    joinWords_ne_nil (core_ne_nil underscored) (head_core name), marker_not_mem_joinWords _ _⟩

end Spelling

section Faults

variable {source : String}

theorem fault_of_cut {text : String} {start stop : Nat} {fault : Fault}
    (abandoned : cut text start stop = .error fault) : fault = .misplacedCut := by
  unfold cut at abandoned
  split at abandoned
  · split at abandoned
    · split at abandoned
      · cases abandoned
      · cases abandoned
        rfl
    · cases abandoned
      rfl
  · cases abandoned
    rfl

theorem fault_of_roleIn {parent place : Place} {fault : Fault}
    (abandoned : roleIn source parent place = .error fault) : fault = .misplacedCut := by
  -- a role is not found only where the text of a name has to be read
  have ofText (named : Place)
      (failed : (do return Role.importBinding (some (← named.text source))) = .error fault) :
      fault = .misplacedCut := by
    rcases eq_error_or_of_bind_eq_error failed with cutFailed | ⟨_, _, answered⟩
    · exact fault_of_cut cutFailed
    · cases answered
  unfold roleIn at abandoned
  split at abandoned
  · split at abandoned
    · cases abandoned
    · split at abandoned <;> cases abandoned
  · split at abandoned <;> cases abandoned
  · cases abandoned
  · cases abandoned
  · split at abandoned <;> cases abandoned
  · split at abandoned
    · next bound _ => exact ofText bound abandoned
    · cases abandoned
  · exact ofText place abandoned
  · exact ofText place abandoned
  · cases abandoned

theorem fault_of_roles {place : Place} {fault : Fault}
    (abandoned : roles source place = .error fault) : fault = .misplacedCut := by
  unfold roles at abandoned
  split at abandoned
  · cases abandoned
  · split at abandoned
    · cases abandoned
    · cases abandoned
    · split at abandoned
      · cases abandoned
      · rcases eq_error_or_of_bind_eq_error abandoned with unknown | ⟨_, _, answered⟩
        · exact fault_of_roleIn unknown
        · cases answered

theorem fault_of_classify {mode : PropertiesMode} {place : Place} {fault : Fault}
    (abandoned : classify mode source place = .error fault) : fault = .misplacedCut := by
  rcases eq_error_or_of_bind_eq_error abandoned with unread | ⟨name, text, afterText⟩
  · exact fault_of_cut unread
  · rcases eq_error_or_of_bind_eq_error afterText with unknown | ⟨held, judged, -⟩
    · exact fault_of_roles unknown
    -- with the name and its roles at hand there is an answer
    · by_cases asked : isUnderscored (splitMarkers name).core ∧ held.any (mode.judges name)
      · obtain ⟨_, answer, -⟩ := classify_of_asked text judged asked.1 asked.2
        rw [abandoned] at answer
        cases answer
      · rw [classify_of_not_asked text judged asked] at abandoned
        cases abandoned

end Faults

theorem classify_ne_some_of_camelCase {mode : PropertiesMode} {source name : String}
    {place : Place} (text : place.text source = .ok (camelCase name)) (diagnostic : Diagnostic) :
    classify mode source place ≠ .ok (some diagnostic) := by
  intro reported
  obtain ⟨own, _, read, -, underscored, -⟩ := exists_of_classify reported
  rw [text] at read
  cases read
  rw [not_isUnderscored_core_camelCase] at underscored
  cases underscored

/-- What a rename promises of the name it replaces and of the new one. -/
structure CleanRename (name replacement : String) : Prop where
  separated : HasInnerMarker name
  mixed : uppercase name ≠ name
  present : replacement ≠ ""
  changed : replacement ≠ name
  markers : KeepsMarkers name replacement
  accepted : ∀ mode source place, place.text source = .ok replacement →
    ∀ diagnostic, classify mode source place ≠ .ok (some diagnostic)

theorem cleanRename_camelCase {name : String}
    (underscored : isUnderscored (splitMarkers name).core) : CleanRename name (camelCase name) where
  separated := (isUnderscored_core_iff.1 underscored).hasInnerMarker
  mixed := (isUnderscored_core_iff.1 underscored).uppercase_ne
  present := camelCase_ne_empty underscored
  changed := camelCase_ne_self underscored
  markers := keepsMarkers_camelCase underscored
  accepted := fun _ _ _ text => classify_ne_some_of_camelCase text

/-- Whatever the classifier is shown, it never asks for a replacement by nothing, and each of its
reports has one opt-in edit of the name, which puts it in camel case cleanly. -/
theorem classify_renames_cleanly (mode : PropertiesMode) (source : String) (place : Place) :
    classify mode source place ≠ .error .emptyReplacement ∧
    ∀ diagnostic, classify mode source place = .ok (some diagnostic) →
      ∃ name fix edit, place.text source = .ok name ∧ diagnostic.fix = some fix ∧
        fix.applicability = .optIn ∧ fix.edits = [edit] ∧ edit.span = place.span ∧
        edit.content = some (camelCase name) ∧ CleanRename name (camelCase name) := by
  constructor
  · intro abandoned
    cases fault_of_classify abandoned
  · intro diagnostic reported
    obtain ⟨name, _, text, -, underscored, -, renames⟩ := exists_of_classify reported
    obtain ⟨edit, fix, span, content⟩ := renames.fix_eq
    exact ⟨name, _, edit, text, fix, rfl, rfl, span, content, cleanRename_camelCase underscored⟩

/-- The alias gets a name that is longer in camel case. -/
theorem classify_renames_alias_importTree :
    ∃ place ∈ (Place.root importTree).preorder, ∃ diagnostic,
      classify .always importSource place = .ok (some diagnostic) ∧
      ∃ name fix edit, place.text importSource = .ok name ∧ diagnostic.fix = some fix ∧
        fix.applicability = .optIn ∧ fix.edits = [edit] ∧ edit.span = place.span ∧
        edit.content = some (camelCase name) ∧ CleanRename name (camelCase name) := by
  let place := (Place.root importTree).preorder.get ⟨6, by decide⟩
  have seen : (verdict .always importSource place).isSome := by decide
  obtain ⟨diagnostic, found⟩ := Option.isSome_iff_exists.1 seen
  have reported := verdict_eq_some_iff.1 found
  exact ⟨place, List.get_mem _ _, diagnostic, reported,
    (classify_renames_cleanly .always importSource place).2 diagnostic reported⟩

end NameLint.Naming
