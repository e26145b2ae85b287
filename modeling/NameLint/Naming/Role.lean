import NameLint.Tree.Place

/-!
# Roles of names

What a name stands for follows from the nodes above it. Most names have one role. A shorthand entry
of a destructuring pattern is the key of the entry and the variable it declares; a name inside a JSX
tag or attribute name has no role at all.
-/

namespace NameLint.Naming

set_option autoImplicit false

/-- The constructs that decide about the names in them. -/
inductive Construct where
  | memberAccess
  | subscript
  | assignment
  | call
  | construction
  | arguments
  | object
  | pair
  | pairPattern
  | methodDefinition
  | importSpecifier
  | importClause
  | namespaceImport
  | jsxElement
  | jsxAttribute
  | jsxNamespaceName
  | other
deriving DecidableEq, Repr

namespace Construct

def ofKind (kind : String) : Construct :=
  match kind with
  | "member_expression" => .memberAccess
  | "subscript_expression" => .subscript
  | "assignment_expression" | "augmented_assignment_expression" => .assignment
  | "call_expression" => .call
  | "new_expression" => .construction
  | "arguments" => .arguments
  | "object" => .object
  | "pair" => .pair
  | "pair_pattern" => .pairPattern
  | "method_definition" => .methodDefinition
  | "import_specifier" => .importSpecifier
  | "import_clause" => .importClause
  | "namespace_import" => .namespaceImport
  | "jsx_opening_element" | "jsx_closing_element" | "jsx_self_closing_element" => .jsxElement
  | "jsx_attribute" => .jsxAttribute
  | "jsx_namespace_name" => .jsxNamespaceName
  | _ => .other

def of (place : Place) : Construct :=
  ofKind place.kind

/-- The construct of a node that may be absent. -/
def ofOption (place : Option Place) : Construct :=
  match place with
  | some place => of place
  | none => .other

def isCallPosition : Construct → Bool
  | .call | .construction | .arguments => true
  | _ => false

end Construct

inductive Role where
  /-- A variable, function, parameter, class or label. -/
  | plainReference
  /-- Either side of a member access, unless it is assigned to. -/
  | memberAccess (isObject : Bool)
  /-- The property of a member access on the left of an assignment. -/
  | assignmentTarget
  /-- Key or value of an entry in an object literal or pattern. -/
  | propertyEntry (passedAsArgument : Bool)
  /-- The key of a shorthand entry in a pattern. -/
  | patternShorthand
  /-- A name in an import, with the name that the import binds. -/
  | importBinding (localName : Option String)
  /-- The callee, the constructor or a direct argument. -/
  | callPosition
deriving DecidableEq, Repr

/-- Whether a name with these ancestors, parent first, belongs to a JSX tag or attribute name. -/
def isJsxName : List (Tree × Nat) → Bool
  | [] => false
  | (tree, _) :: above =>
      match Construct.ofKind tree.label.kind with
      | .memberAccess | .jsxNamespaceName => isJsxName above
      | .jsxElement | .jsxAttribute => true
      | _ => false

/-- Whether a member access is what an assignment assigns to. -/
def isAssignmentTarget (member : Place) : Bool :=
  match member.parent with
  | some parent => Construct.of parent == .assignment && parent.fieldIs "left" member
  | none => false

def propertyRole (object : Option Place) : Role :=
  .propertyEntry (Construct.ofOption (object.bind Place.parent) == .arguments)

/-- The role of a name that is no property. The node that decides is the parent, or the one above if
the parent is a member access or a subscript. -/
def plainRole (place : Place) : Role :=
  let deciding :=
    match Construct.ofOption place.parent with
    | .memberAccess | .subscript => place.parent.bind Place.parent
    | _ => place.parent
  if (Construct.ofOption deciding).isCallPosition then .callPosition else .plainReference

/-- The role of a name that is no shorthand entry, given its parent. -/
def roleIn (source : String) (parent place : Place) : Except Fault Role :=
  match Construct.of parent with
  | .memberAccess =>
      if parent.fieldIs "object" place then .ok (.memberAccess true)
      else if isAssignmentTarget parent then .ok .assignmentTarget
      else .ok (.memberAccess false)
  | .subscript =>
      if parent.fieldIs "object" place then .ok (.memberAccess true) else .ok (plainRole place)
  | .pair | .pairPattern => .ok (propertyRole parent.parent)
  | .methodDefinition =>
      if Construct.ofOption parent.parent == .object then .ok (propertyRole parent.parent)
      else .ok (plainRole place)
  | .importSpecifier =>
      match parent.childByField "alias" <|> parent.childByField "name" with
      | some bound => return .importBinding (some (← bound.text source))
      | none => .ok (.importBinding none)
  | .importClause | .namespaceImport => return .importBinding (some (← place.text source))
  | _ => .ok (plainRole place)

def roles (source : String) (place : Place) : Except Fault (List Role) :=
  if isJsxName place.above then .ok []
  else
    match place.kind with
    | "shorthand_property_identifier_pattern" => .ok [.patternShorthand, plainRole place]
    | "shorthand_property_identifier" => .ok [propertyRole place.parent]
    | _ =>
        match place.parent with
        | none => .ok [.plainReference]
        | some parent => return [← roleIn source parent place]

end NameLint.Naming
