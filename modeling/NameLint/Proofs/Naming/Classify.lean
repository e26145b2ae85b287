import NameLint.Naming.Rule
import NameLint.Proofs.Fault
import NameLint.Proofs.Naming.CamelCase
import NameLint.Proofs.Tree.WellFormed

/-!
# What the classifier answers

In a well-formed tree the classifier always answers. Its answer is nothing, or the one diagnostic
that renames the name at the place, and which of the two follows from the name and its roles.
-/

namespace NameLint.Naming

open NameLint.Text

set_option autoImplicit false

def isName (place : Place) : Bool :=
  nameKinds.contains place.kind

/-- No name lies inside another one. -/
def NamesApart (tree : Tree) : Prop :=
  ∀ place ∈ (Place.root tree).preorder, isName place = true →
    ∀ below ∈ place.descendants, isName below = false

instance (tree : Tree) : Decidable (NamesApart tree) :=
  inferInstanceAs (Decidable (∀ place ∈ (Place.root tree).preorder, isName place = true →
    ∀ below ∈ place.descendants, isName below = false))

theorem names_ordered {source : String} {tree : Tree} (formed : WellFormed source tree)
    (apart : NamesApart tree) :
    ((Place.root tree).preorder.filter isName).Pairwise fun first second =>
      first.span.stop ≤ second.span.start := by
  rw [List.pairwise_filter]
  apply formed.preorder_spans.imp_of_mem
  intro first second firstIn _ lies firstName secondName
  rcases lies with below | before
  · have other := apart first firstIn firstName second below
    rw [secondName] at other
    exact absurd other (by decide)
  · exact before

/-- The diagnostic that reports a name and renames it at its span. -/
structure Renames (diagnostic : Diagnostic) (name : String) (span : Span) : Prop where
  violation_eq : diagnostic.violation = notInCamelCase name (camelCase name)
  span_eq : diagnostic.span = span
  fix_eq : ∃ edit, diagnostic.fix = some (Fix.ofEdit .optIn edit) ∧ edit.span = span ∧
    edit.content = some (camelCase name)

theorem rename?_eq {name : String} (span : Span)
    (underscored : isUnderscored (splitMarkers name).core) :
    ∃ edit, rename? name span = .ok (some (Fix.ofEdit .optIn edit)) ∧ edit.span = span ∧
      edit.content = some (camelCase name) := by
  have present : camelCase name ≠ "" := camelCase_ne_empty underscored
  refine ⟨⟨span, some (camelCase name), by simpa using present⟩, ?_, rfl, rfl⟩
  rw [rename?, if_neg (camelCase_ne_self underscored), Edit.replacement, dif_pos present]
  rfl

section Answer

variable {mode : PropertiesMode} {source name : String} {place : Place} {held : List Role}

theorem classify_of_asked (text : place.text source = .ok name)
    (judged : roles source place = .ok held) (underscored : isUnderscored (splitMarkers name).core)
    (asked : held.any (mode.judges name)) :
    ∃ diagnostic, classify mode source place = .ok (some diagnostic) ∧
      Renames diagnostic name place.span := by
  obtain ⟨edit, renamed, span, content⟩ := rename?_eq place.span underscored
  have both : (isUnderscored (splitMarkers name).core && held.any (mode.judges name)) = true := by
    rw [underscored, asked]
    rfl
  refine ⟨⟨notInCamelCase name (camelCase name), place.span, some (Fix.ofEdit .optIn edit)⟩, ?_,
    rfl, rfl, edit, rfl, span, content⟩
  simp only [classify, text, judged, bind, Except.bind, both, if_true, renamed]
  rfl

theorem classify_of_not_asked (text : place.text source = .ok name)
    (judged : roles source place = .ok held)
    (fine : ¬ (isUnderscored (splitMarkers name).core ∧ held.any (mode.judges name))) :
    classify mode source place = .ok none := by
  rw [← Bool.and_eq_true, Bool.not_eq_true] at fine
  simp only [classify, text, judged, bind, Except.bind, fine]
  rfl

theorem exists_of_classify {diagnostic : Diagnostic}
    (reported : classify mode source place = .ok (some diagnostic)) :
    ∃ name held, place.text source = .ok name ∧ roles source place = .ok held ∧
      isUnderscored (splitMarkers name).core ∧ held.any (mode.judges name) ∧
      Renames diagnostic name place.span := by
  obtain ⟨name, text, afterText⟩ := exists_of_bind_eq_ok reported
  obtain ⟨held, judged, -⟩ := exists_of_bind_eq_ok afterText
  by_cases fine : isUnderscored (splitMarkers name).core ∧ held.any (mode.judges name)
  · obtain ⟨own, answer, renames⟩ := classify_of_asked text judged fine.1 fine.2
    rw [reported] at answer
    cases answer
    exact ⟨name, held, text, judged, fine.1, fine.2, renames⟩
  · rw [classify_of_not_asked text judged fine] at reported
    cases reported

end Answer

section Total

theorem childByField_mem {place child : Place} {field : String}
    (found : place.childByField field = some child) : child ∈ place.children :=
  List.mem_of_find?_eq_some found

theorem childByField_field {place child : Place} {field : String}
    (found : place.childByField field = some child) : child.tree.label.field = some field := by
  have own := List.find?_some found
  rwa [beq_iff_eq] at own

/-- The child of an import specifier that holds the name it binds. -/
def boundChild (parent : Place) : Option Place :=
  parent.childByField "alias" <|> parent.childByField "name"

theorem exists_field_of_boundChild {parent bound : Place}
    (found : boundChild parent = some bound) :
    ∃ field ∈ ["name", "alias"], parent.childByField field = some bound := by
  rw [boundChild, Option.orElse_eq_orElse, Option.orElse_eq_or] at found
  rcases Option.or_eq_some_iff.1 found with renamed | ⟨-, plain⟩
  · exact ⟨"alias", by decide, renamed⟩
  · exact ⟨"name", by decide, plain⟩

theorem boundChild_mem {parent bound : Place} (found : boundChild parent = some bound) :
    bound ∈ parent.children := by
  obtain ⟨field, -, own⟩ := exists_field_of_boundChild found
  exact childByField_mem own

theorem boundChild_field {parent bound : Place} (found : boundChild parent = some bound) :
    bound.tree.label.field ∈ [some "name", some "alias"] := by
  obtain ⟨field, either, own⟩ := exists_field_of_boundChild found
  rw [childByField_field own]
  exact List.mem_map_of_mem either

theorem roleIn_importSpecifier {source : String} {parent place : Place}
    (specifier : Construct.of parent = .importSpecifier) :
    roleIn source parent place = match boundChild parent with
      | some bound => do return .importBinding (some (← bound.text source))
      | none => .ok (.importBinding none) := by
  rw [roleIn, specifier]
  rfl

/-- A name in an import specifier is asked for when the specifier binds it. -/
theorem judges_importSpecifier_iff {mode : PropertiesMode} {source name : String}
    {parent place : Place} {role : Role} (specifier : Construct.of parent = .importSpecifier)
    (known : roleIn source parent place = .ok role) : mode.judges name role = true ↔
      ∃ bound, boundChild parent = some bound ∧ bound.text source = .ok name := by
  rw [roleIn_importSpecifier specifier] at known
  split at known
  · next bound found =>
      obtain ⟨localName, text, same⟩ := exists_of_bind_eq_ok known
      cases same
      simp [PropertiesMode.judges, found, text]
  · next missing =>
      cases known
      simp [PropertiesMode.judges, missing]

variable {source : String} {tree : Tree} (formed : WellFormed source tree)

include formed

theorem roleIn_ok {parent place : Place} (parentIn : parent ∈ (Place.root tree).preorder)
    (within : place ∈ (Place.root tree).preorder) :
    ∃ role, roleIn source parent place = .ok role := by
  obtain ⟨own, text⟩ := formed.text_ok within
  by_cases specifier : Construct.of parent = .importSpecifier
  · rw [roleIn_importSpecifier specifier]
    split
    · next bound found =>
        obtain ⟨localName, localText⟩ := formed.text_ok
          (Place.mem_preorder_of_mem_children parentIn (boundChild_mem found))
        exact ⟨_, by rw [localText]; rfl⟩
    · exact ⟨_, rfl⟩
  · unfold roleIn
    split
    · split
      · exact ⟨_, rfl⟩
      · split <;> exact ⟨_, rfl⟩
    · split <;> exact ⟨_, rfl⟩
    · exact ⟨_, rfl⟩
    · exact ⟨_, rfl⟩
    · split <;> exact ⟨_, rfl⟩
    · next found => exact absurd found specifier
    · exact ⟨_, by rw [text]; rfl⟩
    · exact ⟨_, by rw [text]; rfl⟩
    · exact ⟨_, rfl⟩

theorem roles_ok {place : Place} (within : place ∈ (Place.root tree).preorder) :
    ∃ held, roles source place = .ok held := by
  unfold roles
  split
  · exact ⟨_, rfl⟩
  · split
    · exact ⟨_, rfl⟩
    · exact ⟨_, rfl⟩
    · split
      · exact ⟨_, rfl⟩
      · next parent above =>
          obtain ⟨role, known⟩ := roleIn_ok formed (Place.parent_mem within above).1 within
          exact ⟨_, by rw [known]; rfl⟩

/-- In a well-formed tree every place has an answer, and it is as its name and roles have it. -/
theorem classify_ok (mode : PropertiesMode) {place : Place}
    (within : place ∈ (Place.root tree).preorder) :
    ∃ answer, classify mode source place = .ok answer := by
  obtain ⟨name, text⟩ := formed.text_ok within
  obtain ⟨held, judged⟩ := roles_ok formed within
  by_cases fine : isUnderscored (splitMarkers name).core ∧ held.any (mode.judges name)
  · obtain ⟨diagnostic, answer, -⟩ := classify_of_asked text judged fine.1 fine.2
    exact ⟨_, answer⟩
  · exact ⟨_, classify_of_not_asked text judged fine⟩

end Total

def verdict (mode : PropertiesMode) (source : String) (place : Place) : Option Diagnostic :=
  match classify mode source place with
  | .ok answer => answer
  | .error _ => none

theorem verdict_eq_some_iff {mode : PropertiesMode} {source : String} {place : Place}
    {diagnostic : Diagnostic} : verdict mode source place = some diagnostic ↔
      classify mode source place = .ok (some diagnostic) := by
  unfold verdict
  split
  · next answer known => rw [known, Except.ok.injEq]
  · next fault known =>
      rw [known]
      exact ⟨nofun, nofun⟩

theorem classify_eq_verdict {mode : PropertiesMode} {source : String} {tree : Tree}
    (formed : WellFormed source tree) {place : Place}
    (within : place ∈ (Place.root tree).preorder) :
    classify mode source place = .ok (verdict mode source place) := by
  obtain ⟨answer, known⟩ := classify_ok formed mode within
  rw [verdict, known]

end NameLint.Naming
