import NameLint.Proofs.Naming.Classify
import NameLint.Proofs.Tree.MapSpans

/-!
# Names in a tree with other spans

The roles of a name rest on kinds and fields, which other spans leave alone, and in imports on a
text. So as long as a name is still spelt the same, nothing but the name that its import binds can
make a difference to it.
-/

namespace NameLint.Naming

open NameLint.Text

set_option autoImplicit false

section Shape

variable (change : Span → Span)

@[simp] theorem isName_mapSpans (place : Place) :
    isName (place.mapSpans change) = isName place := by
  rw [isName, isName, Place.kind_mapSpans]

theorem NamesApart.mapSpans {tree : Tree} (apart : NamesApart tree) :
    NamesApart (tree.mapSpans change) := by
  intro moved movedIn named below member
  obtain ⟨place, within, rfl⟩ := (Place.mem_preorder_mapSpans change).1 movedIn
  rw [Place.descendants_mapSpans, List.mem_map] at member
  obtain ⟨own, ownBelow, rfl⟩ := member
  rw [isName_mapSpans] at named ⊢
  exact apart place within named own ownBelow

@[simp] theorem of_mapSpans (place : Place) :
    Construct.of (place.mapSpans change) = Construct.of place := by
  rw [Construct.of, Construct.of, Place.kind_mapSpans]

@[simp] theorem ofOption_mapSpans (place : Option Place) :
    Construct.ofOption (place.map (Place.mapSpans change)) = Construct.ofOption place := by
  cases place with
  | none => rfl
  | some place => exact of_mapSpans change place

theorem bind_parent_mapSpans (place : Option Place) :
    (place.map (Place.mapSpans change)).bind Place.parent =
      (place.bind Place.parent).map (Place.mapSpans change) := by
  cases place with
  | none => rfl
  | some place => exact Place.parent_mapSpans change place

theorem isJsxName_mapSpans (place : Place) :
    isJsxName (place.mapSpans change).above = isJsxName place.above := by
  obtain ⟨tree, above⟩ := place
  rw [Place.mapSpans]
  induction above with
  | nil => rfl
  | cons step rest ih =>
      simp only [List.map_cons, isJsxName, Tree.label_mapSpans]
      split
      · exact ih
      · exact ih
      · rfl
      · rfl
      · rfl

theorem propertyRole_mapSpans (object : Option Place) :
    propertyRole (object.map (Place.mapSpans change)) = propertyRole object := by
  rw [propertyRole, propertyRole, bind_parent_mapSpans, ofOption_mapSpans]

theorem plainRole_mapSpans (place : Place) :
    plainRole (place.mapSpans change) = plainRole place := by
  simp only [plainRole, Place.parent_mapSpans, ofOption_mapSpans, bind_parent_mapSpans]
  split <;> simp only [ofOption_mapSpans]

theorem isAssignmentTarget_mapSpans (member : Place) :
    isAssignmentTarget (member.mapSpans change) = isAssignmentTarget member := by
  rw [isAssignmentTarget, isAssignmentTarget, Place.parent_mapSpans]
  cases member.parent with
  | none => rfl
  | some parent => simp

theorem boundChild_mapSpans (parent : Place) :
    boundChild (parent.mapSpans change) = (boundChild parent).map (Place.mapSpans change) := by
  simp only [boundChild, Place.childByField_mapSpans, Option.orElse_eq_orElse,
    Option.orElse_eq_or, Option.map_or]

end Shape

section Roles

variable {source code name : String} {change : Span → Span} {place : Place}
  (own : (place.mapSpans change).text code = place.text source)

include own

theorem roleIn_mapSpans {parent : Place} (other : Construct.of parent ≠ .importSpecifier) :
    roleIn code (parent.mapSpans change) (place.mapSpans change) = roleIn source parent place := by
  unfold roleIn
  rw [of_mapSpans]
  cases construct : Construct.of parent with
  | importSpecifier => exact absurd construct other
  | _ =>
      simp only [Place.fieldIs_mapSpans, isAssignmentTarget_mapSpans, plainRole_mapSpans,
        Place.parent_mapSpans, propertyRole_mapSpans, ofOption_mapSpans, own]

/-- One role of a name that is still spelt the same asks for no more than before, unless an import
has come to bind the name. -/
theorem judged_of_mapSpans {mode : PropertiesMode} {parent : Place} {role role' : Role}
    (before : roleIn source parent place = .ok role)
    (later : roleIn code (parent.mapSpans change) (place.mapSpans change) = .ok role')
    (bound : ∀ bound, Construct.of parent = .importSpecifier → boundChild parent = some bound →
      (bound.mapSpans change).text code = .ok name → bound.text source = .ok name)
    (asked : mode.judges name role') : mode.judges name role := by
  by_cases specifier : Construct.of parent = .importSpecifier
  · have specifier' : Construct.of (parent.mapSpans change) = .importSpecifier := by
      rw [of_mapSpans, specifier]
    rw [judges_importSpecifier_iff specifier' later, boundChild_mapSpans] at asked
    rw [judges_importSpecifier_iff specifier before]
    obtain ⟨moved, found, text⟩ := asked
    obtain ⟨child, held, rfl⟩ := Option.map_eq_some_iff.1 found
    exact ⟨child, held, bound child specifier held text⟩
  · rw [roleIn_mapSpans own specifier, before] at later
    cases later
    exact asked

/-- A name that is still spelt the same is asked for no more than before, unless an import has come
to bind it. -/
theorem asked_of_mapSpans {mode : PropertiesMode} {held after : List Role}
    (before : roles source place = .ok held)
    (later : roles code (place.mapSpans change) = .ok after)
    (bound : ∀ parent, place.parent = some parent → ∀ bound,
      Construct.of parent = .importSpecifier → boundChild parent = some bound →
      (bound.mapSpans change).text code = .ok name → bound.text source = .ok name)
    (asked : after.any (mode.judges name)) : held.any (mode.judges name) := by
  unfold roles at before later
  rw [isJsxName_mapSpans, Place.kind_mapSpans, Place.parent_mapSpans, plainRole_mapSpans,
    propertyRole_mapSpans] at later
  by_cases jsx : isJsxName place.above
  · rw [if_pos jsx] at later
    cases later
    exact absurd asked (by simp)
  · rw [if_neg jsx] at before later
    generalize place.kind = kind at before later
    split at before
    · cases before
      cases later
      exact asked
    · cases before
      cases later
      exact asked
    · next notPattern notShorthand =>
        cases above : place.parent with
        | none =>
            simp only [above, Option.map_none] at before later
            cases before
            cases later
            exact asked
        | some parent =>
            simp only [above, Option.map_some] at before later
            obtain ⟨role, earlierRole, same⟩ := exists_of_bind_eq_ok before
            obtain ⟨role', laterRole, same'⟩ := exists_of_bind_eq_ok later
            cases same
            cases same'
            rw [List.any_cons, List.any_nil, Bool.or_false] at asked ⊢
            exact judged_of_mapSpans own earlierRole laterRole (bound parent above) asked

end Roles

end NameLint.Naming
