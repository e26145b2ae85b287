import NameLint.Proofs.Lint.Report
import NameLint.Proofs.Naming.Table
import NameLint.Proofs.Sort

/-!
# What leaving properties out leaves out

The two modes judge every role alike but those of properties, which only the mode `always` judges. A
name with such a role has no other one, so leaving properties out silences these names and changes
nothing about the rest: neither a diagnostic nor the order of those that stay.
-/

namespace NameLint.Naming

open NameLint.Text

set_option autoImplicit false

section Roles

/-- The object of an access, the target of an assignment, and the key or value of an entry that is
not passed as an argument. -/
def Role.isProperty : Role → Bool
  | .memberAccess isObject => isObject
  | .assignmentTarget => true
  | .propertyEntry passedAsArgument => !passedAsArgument
  | _ => false

def hasPropertyRole (source : String) (place : Place) : Bool :=
  match roles source place with
  | .ok [role] => role.isProperty
  | _ => false

theorem judges_always (name : String) (role : Role) :
    PropertiesMode.always.judges name role =
      (PropertiesMode.never.judges name role || role.isProperty) := by
  cases role <;> simp [PropertiesMode.judges, Role.isProperty]

theorem judges_never_of_isProperty {name : String} {role : Role} (property : role.isProperty) :
    PropertiesMode.never.judges name role = false := by
  cases role <;> simp_all [PropertiesMode.judges, Role.isProperty]

theorem isProperty_plainRole (place : Place) : (plainRole place).isProperty = false := by
  unfold plainRole
  extract_lets deciding
  cases (Construct.ofOption deciding).isCallPosition <;> rfl

/-- A name has one role, unless it is a shorthand entry of a pattern. -/
theorem roles_shape {source : String} {place : Place} {held : List Role}
    (judged : roles source place = .ok held) :
    held = [] ∨ held = [.patternShorthand, plainRole place] ∨ ∃ role, held = [role] := by
  unfold roles at judged
  split at judged
  · cases judged
    exact .inl rfl
  · split at judged
    · cases judged
      exact .inr (.inl rfl)
    · cases judged
      exact .inr (.inr ⟨_, rfl⟩)
    · split at judged
      · cases judged
        exact .inr (.inr ⟨_, rfl⟩)
      · obtain ⟨role, -, same⟩ := exists_of_bind_eq_ok judged
        cases same
        exact .inr (.inr ⟨role, rfl⟩)

theorem hasPropertyRole_eq_any {source : String} {place : Place} {held : List Role}
    (judged : roles source place = .ok held) :
    hasPropertyRole source place = held.any Role.isProperty := by
  rw [hasPropertyRole, judged]
  rcases roles_shape judged with rfl | rfl | ⟨role, rfl⟩
  · rfl
  · rw [List.any_cons, List.any_cons, isProperty_plainRole]
    rfl
  · rw [List.any_cons, List.any_nil, Bool.or_false]

variable {source name : String} {place : Place} {held : List Role}
  (judged : roles source place = .ok held)

include judged

theorem any_judges_always : held.any (PropertiesMode.always.judges name) =
    (held.any (PropertiesMode.never.judges name) || hasPropertyRole source place) := by
  rw [hasPropertyRole_eq_any judged, Bool.eq_iff_iff]
  simp only [Bool.or_eq_true, List.any_eq_true, judges_always, and_or_left, exists_or]

theorem any_judges_never (property : hasPropertyRole source place) :
    held.any (PropertiesMode.never.judges name) = false := by
  rw [hasPropertyRole, judged] at property
  split at property
  · next role one =>
      cases one
      rw [List.any_cons, judges_never_of_isProperty property]
      rfl
  · cases property

end Roles

section Answers

variable {source : String} {place : Place}

theorem classify_congr {mode other : PropertiesMode}
    (alike : ∀ name held, roles source place = .ok held →
      held.any (mode.judges name) = held.any (other.judges name)) :
    classify mode source place = classify other source place := by
  simp only [classify, bind, Except.bind]
  cases place.text source with
  | error fault => simp only
  | ok name =>
      cases judged : roles source place with
      | error fault => simp only
      | ok held => simp only [alike name held judged]

theorem classify_never_eq (none : hasPropertyRole source place = false) :
    classify .never source place = classify .always source place := by
  apply classify_congr
  intro name held judged
  rw [any_judges_always judged, none, Bool.or_false]

theorem classify_never_ne_some (property : hasPropertyRole source place) (diagnostic : Diagnostic) :
    classify .never source place ≠ .ok (some diagnostic) := by
  intro reported
  obtain ⟨name, held, -, judged, -, asked, -⟩ := exists_of_classify reported
  rw [any_judges_never judged property] at asked
  cases asked

theorem classify_always_of_never {diagnostic : Diagnostic}
    (reported : classify .never source place = .ok (some diagnostic)) :
    classify .always source place = .ok (some diagnostic) := by
  cases property : hasPropertyRole source place with
  | true => exact absurd reported (classify_never_ne_some property diagnostic)
  | false => rwa [← classify_never_eq property]

theorem verdict_never (source : String) (place : Place) : verdict .never source place =
    if hasPropertyRole source place then none else verdict .always source place := by
  split
  · next property =>
      rw [Option.eq_none_iff_forall_ne_some]
      intro diagnostic found
      exact classify_never_ne_some property diagnostic (verdict_eq_some_iff.1 found)
  · next other => rw [verdict, verdict, classify_never_eq (Bool.not_eq_true _ ▸ other)]

end Answers

section Positions

def IsAccessed (place : Place) : Prop :=
  (ancestorKind place 0 = some "member_expression" ∨
    ancestorKind place 0 = some "subscript_expression") ∧ place.IsFirst "object"

def IsAssigned (place : Place) : Prop :=
  ancestorKind place 0 = some "member_expression" ∧
    (∃ parent, place.parent = some parent ∧ parent.IsFirst "left") ∧
    (ancestorKind place 1 = some "assignment_expression" ∨
      ancestorKind place 1 = some "augmented_assignment_expression")

/-- The key or value of an entry, or the name of a method, in an object that is no argument. -/
def IsEntry (place : Place) : Prop :=
  (ancestorKind place 0 = some "pair" ∨ ancestorKind place 0 = some "pair_pattern" ∨
    ancestorKind place 0 = some "method_definition" ∧ ancestorKind place 1 = some "object") ∧
    ancestorKind place 2 ≠ some "arguments"

/-- The position of a property, by the nodes above it. A shorthand entry stands in its object
itself; the shorthand entry of a pattern declares a variable and is no property. -/
def InPropertyPosition (place : Place) : Prop :=
  ¬ InJsxName place ∧ place.kind ≠ "shorthand_property_identifier_pattern" ∧
    if place.kind = "shorthand_property_identifier" then ancestorKind place 1 ≠ some "arguments"
    else IsAccessed place ∨ IsAssigned place ∨ IsEntry place

theorem asked_cons_of_not_applies {row : Row} {rest : List Row} (passed : ¬ row.applies) :
    Asked (row :: rest) ↔ Asked rest := by
  simp [Asked, passed]

theorem asked_always_not_never {source name : String} {place : Place} :
    ¬ InJsxName place ∧ Asked (table .always source name place) ∧
      ¬ Asked (table .never source name place) ↔ InPropertyPosition place := by
  rw [InPropertyPosition, and_congr_right_iff]
  intro _
  by_cases pattern : place.kind = "shorthand_property_identifier_pattern"
  · simp [table, Asked, pattern]
  rw [and_iff_right pattern]
  by_cases shorthand : place.kind = "shorthand_property_identifier"
  · simp [table, Asked, shorthand]
  rw [if_neg shorthand]
  by_cases member : ancestorKind place 0 = some "member_expression"
  · simp [table, Asked, pattern, shorthand, IsAccessed, IsAssigned, IsEntry, member]
  by_cases subscript : ancestorKind place 0 = some "subscript_expression" ∧ place.IsFirst "object"
  · simp [table, Asked, pattern, shorthand, IsAccessed, subscript]
  have notAccessed : ¬ IsAccessed place := fun accessed =>
    accessed.1.elim member fun kind => subscript ⟨kind, accessed.2⟩
  have notAssigned : ¬ IsAssigned place := fun assigned => member assigned.1
  by_cases entry : ancestorKind place 0 = some "pair" ∨ ancestorKind place 0 = some "pair_pattern" ∨
      ancestorKind place 0 = some "method_definition" ∧ ancestorKind place 1 = some "object"
  · simp [table, Asked, pattern, shorthand, notAccessed, notAssigned, IsEntry, member, subscript,
      entry]
  -- the rows that are left do not look at the mode
  · have rows (mode : PropertiesMode) : Asked (table mode source name place) ↔
        Asked ((table .never source name place).drop 5) := by
      rw [table, asked_cons_of_not_applies pattern, asked_cons_of_not_applies shorthand,
        asked_cons_of_not_applies member, asked_cons_of_not_applies subscript,
        asked_cons_of_not_applies entry]
      rfl
    have notEntry : ¬ IsEntry place := fun own => entry own.1
    rw [rows .always, rows .never]
    simp [notAccessed, notAssigned, notEntry]

theorem hasPropertyRole_iff {source : String} {tree : Tree} (formed : WellFormed source tree)
    {place : Place} (within : place ∈ (Place.root tree).preorder) :
    hasPropertyRole source place = true ↔ InPropertyPosition place := by
  obtain ⟨name, text⟩ := formed.text_ok within
  obtain ⟨held, judged⟩ := roles_ok formed within
  have always : held.any (PropertiesMode.always.judges name) = _ := any_judges_always judged
  have asked (mode : PropertiesMode) : held.any (mode.judges name) = true ↔ _ :=
    roles_asked within text judged
  rw [← @asked_always_not_never source name place]
  constructor
  · intro property
    have never : held.any (PropertiesMode.never.judges name) = false :=
      any_judges_never judged property
    rw [property, Bool.or_true, asked] at always
    rw [← Bool.not_eq_true, asked] at never
    exact ⟨always.1, always.2, fun row => never ⟨always.1, row⟩⟩
  · rintro ⟨free, row, noRow⟩
    have never : held.any (PropertiesMode.never.judges name) = false := by
      rw [← Bool.not_eq_true, asked]
      exact fun both => noRow both.2
    rw [(asked .always).2 ⟨free, row⟩, never, Bool.false_or] at always
    exact always.symm

end Positions

section Linter

/-- The reports of the mode `always` at names with the role of a property, in pre-order. -/
def propertyReports (source : String) (tree : Tree) : List Diagnostic :=
  (((Place.root tree).preorder.filter isName).filter (hasPropertyRole source)).filterMap
    (verdict .always source)

theorem reports_never (source : String) (tree : Tree) : reports .never source tree =
    (((Place.root tree).preorder.filter isName).filter (!hasPropertyRole source ·)).filterMap
      (verdict .always source) := by
  generalize names : (Place.root tree).preorder.filter isName = places
  rw [reports, names, List.filterMap_filter]
  congr 1
  funext place
  rw [verdict_never]
  cases hasPropertyRole source place <;> rfl

theorem reports_never_sublist (source : String) (tree : Tree) :
    (reports .never source tree).Sublist (reports .always source tree) := by
  rw [reports_never]
  exact List.filter_sublist.filterMap _

theorem reports_always_perm (source : String) (tree : Tree) : (reports .always source tree).Perm
    (reports .never source tree ++ propertyReports source tree) := by
  rw [reports_never, propertyReports, ← List.filterMap_append]
  apply List.Perm.filterMap
  have parts := List.filter_append_perm (hasPropertyRole source)
    ((Place.root tree).preorder.filter isName)
  exact (List.perm_append_comm.trans parts).symm

end Linter

/-- Leaving properties out changes no report that stays, here and in whole runs: what the linter
then reports is part of what it reports otherwise, in the same order, and what is missing are the
reports at the names in the position of a property. -/
theorem never_leaves_out_property_reports (source : String) (tree : Tree) :
    (∀ place diagnostic, classify .never source place = .ok (some diagnostic) →
      classify .always source place = .ok (some diagnostic)) ∧
    (WellFormed source tree → ∃ never always,
      (camelCaseLinter .never).check source tree = .ok never ∧
      (camelCaseLinter .always).check source tree = .ok always ∧
      never.Sublist always ∧ always.Perm (never ++ propertyReports source tree) ∧
      ∀ place ∈ (Place.root tree).preorder,
        (hasPropertyRole source place = true ↔ InPropertyPosition place) ∧
        verdict .never source place =
          if hasPropertyRole source place then none else verdict .always source place) := by
  refine ⟨fun _ _ => classify_always_of_never, fun formed => ⟨_, _, check_eq_mergeSort formed _,
    check_eq_mergeSort formed _, ?_, ?_, fun place within =>
      ⟨hasPropertyRole_iff formed within, verdict_never source place⟩⟩⟩
  · apply mergeSort_sublist_mergeSort
    · exact fun _ _ _ => Span.precedes_trans
    · exact fun _ _ => Span.precedes_total _ _
    · exact reports_never_sublist source tree
  · have sorted := List.mergeSort_perm (reports .always source tree)
      fun left right => left.span.precedes right.span
    have sorted' := List.mergeSort_perm (reports .never source tree)
      fun left right => left.span.precedes right.span
    exact sorted.trans ((reports_always_perm source tree).trans (sorted'.symm.append_right _))

def accessSource : String := "a_b.c_d = e_f"

def accessTree : Tree :=
  let label (kind : String) (field : Option String) (span : Span) : Label :=
    ⟨kind, field, span, true, false⟩
  .node (label "program" none (spanAt 0 13))
    [.node (label "assignment_expression" none (spanAt 0 13))
      [.node (label "member_expression" (some "left") (spanAt 0 7))
        [.node (label "identifier" (some "object") (spanAt 0 3)) [],
          .node (label "property_identifier" (some "property") (spanAt 4 3)) []],
        .node (label "identifier" (some "right") (spanAt 10 3)) []]]

/-- The variable stays, and the object and the target are left out. -/
theorem never_leaves_out_accessTree :
    WellFormed accessSource accessTree ∧ ∃ never always,
      (camelCaseLinter .never).check accessSource accessTree = .ok never ∧ never.length = 1 ∧
      (camelCaseLinter .always).check accessSource accessTree = .ok always ∧ always.length = 3 ∧
      never.Sublist always ∧ always.Perm (never ++ propertyReports accessSource accessTree) ∧
      ∀ place ∈ (Place.root accessTree).preorder,
        (hasPropertyRole accessSource place = true ↔ InPropertyPosition place) ∧
        verdict .never accessSource place =
          if hasPropertyRole accessSource place then none
          else verdict .always accessSource place := by
  have formed : WellFormed accessSource accessTree := by decide
  obtain ⟨never, always, neverChecked, alwaysChecked, sublist, perm, places⟩ :=
    (never_leaves_out_property_reports accessSource accessTree).2 formed
  have one : never.length = 1 := by
    rw [check_eq_mergeSort formed, Except.ok.injEq] at neverChecked
    rw [← neverChecked, List.length_mergeSort]
    decide
  have three : always.length = 3 := by
    rw [check_eq_mergeSort formed, Except.ok.injEq] at alwaysChecked
    rw [← alwaysChecked, List.length_mergeSort]
    decide
  exact ⟨formed, never, always, neverChecked, one, alwaysChecked, three, sublist, perm, places⟩

end NameLint.Naming
