import NameLint.Proofs.Naming.Classify
import NameLint.Proofs.Naming.Construct

/-!
# The table of the classifier

The roles of a name come down to a table over the kinds of the nodes above it, read from the top:
the first row that applies decides. The table mentions neither roles nor constructs, so that the
two readings check each other.
-/

namespace NameLint

set_option autoImplicit false

/-- The place is the first child of its parent in the field. -/
def Place.IsFirst (field : String) (place : Place) : Prop :=
  match place.above with
  | [] => False
  | (parent, number) :: _ => place.tree.label.field = some field ∧
      ∀ earlier ∈ parent.children.take number, earlier.label.field ≠ some field

namespace Naming

def ancestorKind (place : Place) (levels : Nat) : Option String :=
  place.above[levels]?.map fun step => step.1.label.kind

/-- The nearest ancestor that does not just hold together the pieces of a name is a JSX tag or
attribute. -/
def InJsxName (place : Place) : Prop :=
  ∃ kind ∈ ["jsx_opening_element", "jsx_closing_element", "jsx_self_closing_element",
      "jsx_attribute"],
    (place.above.map fun step => step.1.label.kind).find?
      (fun kind => !(["member_expression", "jsx_namespace_name"].contains kind)) = some kind

/-- The callee, the constructor or a direct argument. One member access or subscript between does
not count. -/
def InCallPosition (place : Place) : Prop :=
  ∃ kind ∈ ["call_expression", "new_expression", "arguments"],
    (if ancestorKind place 0 = some "member_expression" ∨
        ancestorKind place 0 = some "subscript_expression" then ancestorKind place 1
      else ancestorKind place 0) = some kind

/-- The parent, an import specifier, binds the name: it is the alias, or without one the name. -/
def BoundByParent (source name : String) (place : Place) : Prop :=
  match place.above with
  | [] => False
  | (parent, _) :: _ => ∃ bound,
      ((parent.children.find? fun child => child.label.field == some "alias").or
        (parent.children.find? fun child => child.label.field == some "name")) = some bound ∧
      bound.label.span.text source = .ok name

structure Row where
  applies : Prop
  asks : Prop

/-- The first row that applies asks for camel case. -/
def Asked : List Row → Prop
  | [] => False
  | row :: rest => row.applies ∧ row.asks ∨ ¬ row.applies ∧ Asked rest

def table (mode : PropertiesMode) (source name : String) (place : Place) : List Row :=
  [⟨place.kind = "shorthand_property_identifier_pattern", ¬ InCallPosition place⟩,
    ⟨place.kind = "shorthand_property_identifier",
      mode = .always ∧ ancestorKind place 1 ≠ some "arguments"⟩,
    ⟨ancestorKind place 0 = some "member_expression",
      mode = .always ∧ (place.IsFirst "object" ∨
        (∃ parent, place.parent = some parent ∧ parent.IsFirst "left") ∧
          (ancestorKind place 1 = some "assignment_expression" ∨
            ancestorKind place 1 = some "augmented_assignment_expression"))⟩,
    ⟨ancestorKind place 0 = some "subscript_expression" ∧ place.IsFirst "object", mode = .always⟩,
    ⟨ancestorKind place 0 = some "pair" ∨ ancestorKind place 0 = some "pair_pattern" ∨
        ancestorKind place 0 = some "method_definition" ∧ ancestorKind place 1 = some "object",
      mode = .always ∧ ancestorKind place 2 ≠ some "arguments"⟩,
    ⟨ancestorKind place 0 = some "import_specifier", BoundByParent source name place⟩,
    ⟨ancestorKind place 0 = some "import_clause" ∨ ancestorKind place 0 = some "namespace_import",
      True⟩,
    ⟨True, ¬ InCallPosition place⟩]

section Kinds

def constructAt (place : Place) (levels : Nat) : Construct :=
  ((ancestorKind place levels).map Construct.ofKind).getD .other

theorem constructAt_eq_iff {construct : Construct} (known : construct ≠ .other) {place : Place}
    {levels : Nat} : constructAt place levels = construct ↔
      ∃ kind ∈ construct.spellings, ancestorKind place levels = some kind := by
  unfold constructAt
  cases ancestorKind place levels with
  | none => simpa using fun same => known same.symm
  | some kind => simp [ofKind_eq_iff known]

theorem constructAt_eq_iff_kind (construct : Construct) {kind : String}
    (spelling : construct.spellings = [kind]) {place : Place} {levels : Nat} :
    constructAt place levels = construct ↔ ancestorKind place levels = some kind := by
  have known : construct ≠ .other := by
    rintro rfl
    exact absurd spelling (by simp [Construct.spellings])
  rw [constructAt_eq_iff known, spelling]
  simp

theorem ofOption_eq_constructAt (place : Place) :
    Construct.ofOption place.parent = constructAt place 0 ∧
      Construct.ofOption (place.parent.bind Place.parent) = constructAt place 1 ∧
      Construct.ofOption ((place.parent.bind Place.parent).bind Place.parent) =
        constructAt place 2 := by
  obtain ⟨tree, above⟩ := place
  rcases above with _ | ⟨first, _ | ⟨second, _ | ⟨third, rest⟩⟩⟩ <;> exact ⟨rfl, rfl, rfl⟩

end Kinds

section Conditions

theorem isJsxName_iff {place : Place} : isJsxName place.above = true ↔ InJsxName place := by
  obtain ⟨tree, above⟩ := place
  simp only [InJsxName]
  induction above with
  | nil => simp [isJsxName]
  | cons step rest ih =>
      obtain ⟨parent, number⟩ := step
      simp only [List.map_cons, isJsxName]
      split
      · next construct =>
          have kind := (ofKind_eq_iff (by decide)).1 construct
          rw [List.mem_singleton.1 kind, List.find?_cons_of_neg (by decide)]
          exact ih
      · next construct =>
          have kind := (ofKind_eq_iff (by decide)).1 construct
          rw [List.mem_singleton.1 kind, List.find?_cons_of_neg (by decide)]
          exact ih
      · next construct =>
          have kind := (ofKind_eq_iff (by decide)).1 construct
          simp only [Construct.spellings, List.mem_cons, List.not_mem_nil, or_false] at kind
          rcases kind with same | same | same <;> simp [same]
      · next construct =>
          have kind := (ofKind_eq_iff (by decide)).1 construct
          simp [List.mem_singleton.1 kind]
      · next notMember notNamespace notElement notAttribute =>
          have whole : ¬ parent.label.kind ∈ ["member_expression", "jsx_namespace_name"] := by
            simp only [List.mem_cons, List.not_mem_nil, or_false]
            rintro (same | same)
            · exact notMember (by rw [same]; rfl)
            · exact notNamespace (by rw [same]; rfl)
          rw [List.find?_cons_of_pos (by simpa using whole)]
          simp only [Bool.false_eq_true, Option.some.injEq, exists_eq_right', false_iff]
          intro tag
          simp only [List.mem_cons, List.not_mem_nil, or_false] at tag
          rcases tag with same | same | same | same
          · exact notElement (by rw [same]; rfl)
          · exact notElement (by rw [same]; rfl)
          · exact notElement (by rw [same]; rfl)
          · exact notAttribute (by rw [same]; rfl)

theorem isCallPosition_constructAt {place : Place} {levels : Nat} :
    (constructAt place levels).isCallPosition = true ↔
      ∃ kind ∈ ["call_expression", "new_expression", "arguments"],
        ancestorKind place levels = some kind := by
  rw [isCallPosition_iff, constructAt_eq_iff (by decide), constructAt_eq_iff (by decide),
    constructAt_eq_iff (by decide)]
  simp [Construct.spellings]

theorem plainRole_asked {mode : PropertiesMode} {name : String} {place : Place} :
    mode.judges name (plainRole place) = true ↔ ¬ InCallPosition place := by
  obtain ⟨parent, grandparent, -⟩ := ofOption_eq_constructAt place
  have judged (deciding : Option Place) : mode.judges name
      (if (Construct.ofOption deciding).isCallPosition then .callPosition else .plainReference) =
        true ↔ ¬ (Construct.ofOption deciding).isCallPosition = true := by
    split <;> simp_all [PropertiesMode.judges]
  rw [plainRole, judged, InCallPosition, not_iff_not]
  split
  · next found =>
      rw [parent, constructAt_eq_iff_kind .memberAccess rfl] at found
      rw [if_pos (.inl found), grandparent, isCallPosition_constructAt]
  · next found =>
      rw [parent, constructAt_eq_iff_kind .subscript rfl] at found
      rw [if_pos (.inr found), grandparent, isCallPosition_constructAt]
  · next notMember notSubscript =>
      have plain : ¬ (ancestorKind place 0 = some "member_expression" ∨
          ancestorKind place 0 = some "subscript_expression") := by
        rw [← constructAt_eq_iff_kind .memberAccess rfl, ← constructAt_eq_iff_kind .subscript rfl,
          ← parent]
        exact fun either => either.elim notMember notSubscript
      rw [if_neg plain, parent, isCallPosition_constructAt]

theorem propertyRole_asked {mode : PropertiesMode} {name : String} {object : Option Place} :
    mode.judges name (propertyRole object) = true ↔
      mode = .always ∧ Construct.ofOption (object.bind Place.parent) ≠ .arguments := by
  simp [PropertiesMode.judges, propertyRole]

theorem fieldIs_iff {parent place : Place} (child : place ∈ parent.children) (field : String) :
    parent.fieldIs field place = true ↔ place.IsFirst field := by
  obtain ⟨number, found, way⟩ := Place.mem_children.1 child
  have trees := Place.map_tree_children parent
  -- the number on the way to the place is how many siblings come before it
  have position {before after : List Place} (split : parent.children = before ++ place :: after) :
      number = before.length := by
    have same := Place.getElem?_children parent before.length
    rw [split] at same
    obtain ⟨tree, -, shape⟩ := Option.map_eq_some_iff.1 (by simpa using same.symm)
    rw [← shape] at way
    simp only [List.cons.injEq, Prod.mk.injEq] at way
    exact way.1.2.symm
  rw [Place.IsFirst, way]
  simp only [Place.fieldIs, Place.childByField, Option.any_eq_true, beq_iff_eq]
  constructor
  · rintro ⟨other, first, same⟩
    have held := Place.mem_preorder_of_mem_children (Place.mem_preorder_self parent)
      (List.mem_of_find?_eq_some first)
    have equal := Place.eq_of_address_eq held
      (Place.mem_preorder_of_mem_children (Place.mem_preorder_self parent) child) same
    subst equal
    obtain ⟨own, before, after, split, earlier⟩ := List.find?_eq_some_iff_append.1 first
    refine ⟨by simpa using own, ?_⟩
    rw [position split, ← trees, split, List.map_append, List.take_left' (by simp)]
    intro tree member
    obtain ⟨place, placeIn, rfl⟩ := List.mem_map.1 member
    simpa using earlier place placeIn
  · rintro ⟨own, earlier⟩
    obtain ⟨before, after, split⟩ := List.append_of_mem child
    refine ⟨place, List.find?_eq_some_iff_append.2
      ⟨by simpa using own, before, after, split, ?_⟩, rfl⟩
    intro other otherIn
    have among : other.tree ∈ parent.tree.children.take number := by
      rw [position split, ← trees, split, List.map_append, List.take_left' (by simp)]
      exact List.mem_map_of_mem otherIn
    simpa using earlier other.tree among

theorem map_tree_childByField (parent : Place) (field : String) :
    (parent.childByField field).map Place.tree =
      parent.tree.children.find? fun child => child.label.field == some field := by
  rw [← Place.map_tree_children, List.find?_map]
  rfl

theorem boundByParent_iff {parent place : Place} (child : place ∈ parent.children)
    {source name : String} : BoundByParent source name place ↔
      ∃ bound, boundChild parent = some bound ∧ bound.text source = .ok name := by
  obtain ⟨number, -, way⟩ := Place.mem_children.1 child
  rw [BoundByParent, way]
  simp only
  rw [← map_tree_childByField, ← map_tree_childByField, boundChild, Option.orElse_eq_orElse,
    Option.orElse_eq_or, ← Option.map_or]
  simp only [Option.map_eq_some_iff]
  constructor
  · rintro ⟨tree, ⟨bound, found, rfl⟩, text⟩
    exact ⟨bound, found, text⟩
  · rintro ⟨bound, found, text⟩
    exact ⟨bound.tree, ⟨bound, found, rfl⟩, text⟩

end Conditions

section Parent

variable {source name : String} {tree : Tree} {mode : PropertiesMode} {place parent : Place}
  {role : Role} (above : place.parent = some parent)

include above

theorem constructAt_of_parent :
    Construct.of parent = constructAt place 0 ∧
      Construct.ofOption parent.parent = constructAt place 1 ∧
      Construct.ofOption (parent.parent.bind Place.parent) = constructAt place 2 := by
  have levels := ofOption_eq_constructAt place
  rw [above, Option.bind_some] at levels
  exact levels

theorem ancestorKind_of_parent {construct : Construct} {kind : String}
    (spelling : construct.spellings = [kind]) (found : Construct.of parent = construct) :
    ancestorKind place 0 = some kind :=
  (constructAt_eq_iff_kind construct spelling).1
    ((constructAt_of_parent above).1.symm.trans found)

theorem ancestorKind_ne_of_parent {construct : Construct} {kind : String}
    (spelling : construct.spellings = [kind]) (different : Construct.of parent ≠ construct) :
    ancestorKind place 0 ≠ some kind := by
  rw [Ne, ← constructAt_eq_iff_kind construct spelling, ← (constructAt_of_parent above).1]
  exact different

theorem propertyRole_of_parent_asked :
    mode.judges name (propertyRole parent.parent) = true ↔
      mode = .always ∧ ancestorKind place 2 ≠ some "arguments" := by
  rw [propertyRole_asked, (constructAt_of_parent above).2.2, Ne,
    constructAt_eq_iff_kind .arguments rfl]

theorem isAssignmentTarget_iff (parentIn : parent ∈ (Place.root tree).preorder) :
    isAssignmentTarget parent = true ↔ parent.IsFirst "left" ∧
      (ancestorKind place 1 = some "assignment_expression" ∨
        ancestorKind place 1 = some "augmented_assignment_expression") := by
  have assignment : constructAt place 1 = .assignment ↔
      ancestorKind place 1 = some "assignment_expression" ∨
        ancestorKind place 1 = some "augmented_assignment_expression" := by
    rw [constructAt_eq_iff (by decide)]
    simp [Construct.spellings]
  have outer := (constructAt_of_parent above).2.1
  rw [← assignment, ← outer, isAssignmentTarget]
  split
  · next grandparent found =>
      rw [found, Bool.and_eq_true, beq_iff_eq,
        fieldIs_iff (Place.parent_mem parentIn found).2, and_comm]
      rfl
  · next missing =>
      rw [missing]
      simp [Construct.ofOption]

end Parent

section Rows

variable {source name : String} {tree : Tree} {mode : PropertiesMode} {place parent : Place}
  {role : Role} (above : place.parent = some parent)
  (notPattern : place.kind ≠ "shorthand_property_identifier_pattern")
  (notShorthand : place.kind ≠ "shorthand_property_identifier")

include above notPattern notShorthand

theorem plain_asked
    (unnamed : ∀ construct ∈ [Construct.memberAccess, .subscript, .pair, .pairPattern,
      .methodDefinition, .importSpecifier, .importClause, .namespaceImport],
      Construct.of parent ≠ construct) :
    mode.judges name (plainRole place) = true ↔ Asked (table mode source name place) := by
  have unlike {construct : Construct} {kind : String} (spelling : construct.spellings = [kind])
      (different : Construct.of parent ≠ construct) : ancestorKind place 0 ≠ some kind :=
    ancestorKind_ne_of_parent above spelling different
  simp only [List.forall_mem_cons] at unnamed
  obtain ⟨member, subscript, pair, pairPattern, method, specifier, clause, whole, -⟩ := unnamed
  rw [plainRole_asked]
  simp [table, Asked, notPattern, notShorthand, unlike rfl member, unlike rfl subscript,
    unlike rfl pair, unlike rfl pairPattern, unlike rfl method, unlike rfl specifier,
    unlike rfl clause, unlike rfl whole]

variable (known : roleIn source parent place = .ok role)

include known

theorem entry_asked (found : Construct.of parent = .pair ∨ Construct.of parent = .pairPattern) :
    mode.judges name role = true ↔ Asked (table mode source name place) := by
  rcases found with found | found
  · have kind := ancestorKind_of_parent above rfl found
    simp only [roleIn, found] at known
    cases known
    rw [propertyRole_of_parent_asked above]
    simp [table, Asked, notPattern, notShorthand, kind]
  · have kind := ancestorKind_of_parent above rfl found
    simp only [roleIn, found] at known
    cases known
    rw [propertyRole_of_parent_asked above]
    simp [table, Asked, notPattern, notShorthand, kind]

theorem methodDefinition_asked (found : Construct.of parent = .methodDefinition) :
    mode.judges name role = true ↔ Asked (table mode source name place) := by
  have kind := ancestorKind_of_parent above rfl found
  have inObject : Construct.ofOption parent.parent = .object ↔
      ancestorKind place 1 = some "object" := by
    rw [(constructAt_of_parent above).2.1, constructAt_eq_iff_kind .object rfl]
  simp only [table, Asked, notPattern, notShorthand, kind]
  simp only [roleIn, found] at known
  split at known
  · next held =>
      rw [beq_iff_eq, inObject] at held
      cases known
      rw [propertyRole_of_parent_asked above]
      simp [held]
  · next free =>
      rw [beq_iff_eq, inObject] at free
      cases known
      rw [plainRole_asked]
      simp [free]

theorem wholeImport_asked (text : place.text source = .ok name)
    (found : Construct.of parent = .importClause ∨ Construct.of parent = .namespaceImport) :
    mode.judges name role = true ↔ Asked (table mode source name place) := by
  rcases found with found | found
  · have kind := ancestorKind_of_parent above rfl found
    simp only [roleIn, found, text] at known
    cases known
    simp [table, Asked, notPattern, notShorthand, kind, PropertiesMode.judges]
  · have kind := ancestorKind_of_parent above rfl found
    simp only [roleIn, found, text] at known
    cases known
    simp [table, Asked, notPattern, notShorthand, kind, PropertiesMode.judges]

variable (within : place ∈ (Place.root tree).preorder)

include within

theorem memberAccess_asked (found : Construct.of parent = .memberAccess) :
    mode.judges name role = true ↔ Asked (table mode source name place) := by
  obtain ⟨parentIn, child⟩ := Place.parent_mem within above
  have kind := ancestorKind_of_parent above rfl found
  have object := fieldIs_iff child "object"
  have target := isAssignmentTarget_iff above parentIn
  simp only [table, Asked, notPattern, notShorthand, kind, above]
  simp only [roleIn, found] at known
  split at known
  · next first =>
      cases known
      simp [PropertiesMode.judges, object.1 first]
  · next later =>
      rw [object] at later
      split at known
      · next assigned =>
          cases known
          simp [PropertiesMode.judges, later, target.1 assigned]
      · next read =>
          rw [target] at read
          cases known
          simp [PropertiesMode.judges, later, read]

theorem subscript_asked (found : Construct.of parent = .subscript) :
    mode.judges name role = true ↔ Asked (table mode source name place) := by
  have kind := ancestorKind_of_parent above rfl found
  have object := fieldIs_iff (Place.parent_mem within above).2 "object"
  simp only [table, Asked, notPattern, notShorthand, kind, above]
  simp only [roleIn, found] at known
  split at known
  · next first =>
      cases known
      simp [PropertiesMode.judges, object.1 first]
  · next later =>
      rw [object] at later
      cases known
      rw [plainRole_asked]
      simp [later]

theorem importSpecifier_asked (found : Construct.of parent = .importSpecifier) :
    mode.judges name role = true ↔ Asked (table mode source name place) := by
  have kind := ancestorKind_of_parent above rfl found
  rw [judges_importSpecifier_iff found known, ← boundByParent_iff (Place.parent_mem within above).2]
  simp [table, Asked, notPattern, notShorthand, kind]

/-- The role of a name with a parent asks for camel case as the rows below the first two say. -/
theorem roleIn_asked (text : place.text source = .ok name) :
    mode.judges name role = true ↔ Asked (table mode source name place) := by
  cases found : Construct.of parent with
  | memberAccess => exact memberAccess_asked above notPattern notShorthand known within found
  | subscript => exact subscript_asked above notPattern notShorthand known within found
  | pair => exact entry_asked above notPattern notShorthand known (.inl found)
  | pairPattern => exact entry_asked above notPattern notShorthand known (.inr found)
  | methodDefinition => exact methodDefinition_asked above notPattern notShorthand known found
  | importSpecifier => exact importSpecifier_asked above notPattern notShorthand known within found
  | importClause => exact wholeImport_asked above notPattern notShorthand known text (.inl found)
  | namespaceImport => exact wholeImport_asked above notPattern notShorthand known text (.inr found)
  | _ =>
      simp only [roleIn, found] at known
      cases known
      exact plain_asked above notPattern notShorthand (by simp [found])

end Rows

section Roles

variable {source name : String} {tree : Tree} {mode : PropertiesMode} {place : Place}

theorem roles_asked {held : List Role} (within : place ∈ (Place.root tree).preorder)
    (text : place.text source = .ok name) (judged : roles source place = .ok held) :
    held.any (mode.judges name) = true ↔
      ¬ InJsxName place ∧ Asked (table mode source name place) := by
  unfold roles at judged
  split at judged
  · next jsx =>
      rw [isJsxName_iff] at jsx
      cases judged
      simp [jsx]
  · next notJsx =>
      rw [isJsxName_iff] at notJsx
      rw [and_iff_right notJsx]
      split at judged
      · next pattern =>
          cases judged
          have key : mode.judges name .patternShorthand = false := rfl
          rw [List.any_cons, List.any_cons, List.any_nil, key, Bool.false_or, Bool.or_false,
            plainRole_asked]
          simp [table, Asked, pattern]
      · next shorthand =>
          cases judged
          have outer := (ofOption_eq_constructAt place).2.1
          rw [List.any_cons, List.any_nil, Bool.or_false, propertyRole_asked, outer, Ne,
            constructAt_eq_iff_kind .arguments rfl]
          simp [table, Asked, shorthand]
      · next notPattern notShorthand =>
          split at judged
          · next top =>
              cases judged
              obtain ⟨own, above⟩ := place
              have none : above = [] := by
                cases above with
                | nil => rfl
                | cons step rest => simp [Place.parent] at top
              subst none
              have first : Place.kind ⟨own, []⟩ ≠ _ := notPattern
              have second : Place.kind ⟨own, []⟩ ≠ _ := notShorthand
              simp [table, Asked, first, second, PropertiesMode.judges, ancestorKind,
                InCallPosition]
          · next parent above =>
              obtain ⟨role, known, same⟩ := exists_of_bind_eq_ok judged
              cases same
              simpa using roleIn_asked above notPattern notShorthand known within text

end Roles

/-- The answer is a diagnostic exactly for a name that needs camel case, lies outside JSX names and
is asked for by the first row of the table that applies. -/
theorem classify_isSome_iff_table {source : String} {tree : Tree} (formed : WellFormed source tree)
    (mode : PropertiesMode) {place : Place} (within : place ∈ (Place.root tree).preorder) :
    ∃ name answer, place.text source = .ok name ∧ classify mode source place = .ok answer ∧
      (answer.isSome ↔ NeedsCamelCase name ∧ ¬ InJsxName place ∧
        Asked (table mode source name place)) := by
  obtain ⟨name, text⟩ := formed.text_ok within
  obtain ⟨held, judged⟩ := roles_ok formed within
  have asked : held.any (mode.judges name) ↔ _ := roles_asked within text judged
  refine ⟨name, ?_⟩
  by_cases reported : isUnderscored (splitMarkers name).core ∧ held.any (mode.judges name)
  · obtain ⟨diagnostic, answer, -⟩ := classify_of_asked text judged reported.1 reported.2
    rw [isUnderscored_core_iff, asked] at reported
    exact ⟨some diagnostic, text, answer, by simp [reported.1, reported.2.1, reported.2.2]⟩
  · have answer := classify_of_not_asked text judged reported
    rw [isUnderscored_core_iff, asked] at reported
    exact ⟨none, text, answer, by simpa using reported⟩

/-- The alias is asked for because the import specifier binds it. -/
theorem classify_alias_importTree :
    WellFormed importSource importTree ∧ ∃ place ∈ (Place.root importTree).preorder,
      place.span.start = 16 ∧ ∃ name answer, place.text importSource = .ok name ∧
        classify .always importSource place = .ok answer ∧ answer.isSome ∧
        NeedsCamelCase name ∧ ¬ InJsxName place ∧
        Asked (table .always importSource name place) := by
  have formed : WellFormed importSource importTree := by decide
  let place := (Place.root importTree).preorder.get ⟨6, by decide⟩
  have within : place ∈ (Place.root importTree).preorder := List.get_mem _ _
  obtain ⟨name, answer, text, answered, asked⟩ := classify_isSome_iff_table formed .always within
  have reported : answer.isSome := by
    have seen : (verdict .always importSource place).isSome := by decide
    rw [verdict, answered] at seen
    exact seen
  exact ⟨formed, place, within, by decide, name, answer, text, answered, reported,
    asked.1 reported⟩

end Naming

end NameLint
