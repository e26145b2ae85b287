import NameLint.Naming.Role

/-!
# How constructs are written

A construct other than `other` is told by the kinds it is written with, so a question about
constructs can be turned into one about kinds.
-/

namespace NameLint.Naming

set_option autoImplicit false

def Construct.spellings : Construct → List String
  | .memberAccess => ["member_expression"]
  | .subscript => ["subscript_expression"]
  | .assignment => ["assignment_expression", "augmented_assignment_expression"]
  | .call => ["call_expression"]
  | .construction => ["new_expression"]
  | .arguments => ["arguments"]
  | .object => ["object"]
  | .pair => ["pair"]
  | .pairPattern => ["pair_pattern"]
  | .methodDefinition => ["method_definition"]
  | .importSpecifier => ["import_specifier"]
  | .importClause => ["import_clause"]
  | .namespaceImport => ["namespace_import"]
  | .jsxElement => ["jsx_opening_element", "jsx_closing_element", "jsx_self_closing_element"]
  | .jsxAttribute => ["jsx_attribute"]
  | .jsxNamespaceName => ["jsx_namespace_name"]
  | .other => []

theorem ofKind_of_mem_spellings (construct : Construct) :
    ∀ kind ∈ construct.spellings, Construct.ofKind kind = construct := by
  cases construct <;> decide

theorem ofKind_spelled (kind : String) :
    Construct.ofKind kind = .other ∨ kind ∈ (Construct.ofKind kind).spellings := by
  unfold Construct.ofKind
  split <;> simp [Construct.spellings]

theorem ofKind_eq_iff {construct : Construct} (known : construct ≠ .other) {kind : String} :
    Construct.ofKind kind = construct ↔ kind ∈ construct.spellings := by
  constructor
  · rintro rfl
    exact (ofKind_spelled kind).resolve_left known
  · exact ofKind_of_mem_spellings construct kind

theorem isCallPosition_iff {construct : Construct} : construct.isCallPosition = true ↔
    construct = .call ∨ construct = .construction ∨ construct = .arguments := by
  cases construct <;> simp [Construct.isCallPosition]

end NameLint.Naming
