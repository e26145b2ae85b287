import NameLint.Edit.Diagnostic
import NameLint.Tree.Place

/-!
# Rules

A rule looks at one place at a time. All it can remember from place to place is the set of marks:
which rule has reported which node.
-/

namespace NameLint

set_option autoImplicit false

structure Mark where
  rule : String
  address : List Nat
deriving DecidableEq, Repr

structure Reported where
  marks : List Mark := []
deriving DecidableEq, Repr

namespace Reported

def has (reported : Reported) (rule : String) (place : Place) : Bool :=
  reported.marks.contains ⟨rule, place.address⟩

/-- Marks the place, and tells whether it was not marked before. -/
def mark (reported : Reported) (rule : String) (place : Place) : Bool × Reported :=
  if reported.has rule place then (false, reported)
  else (true, ⟨⟨rule, place.address⟩ :: reported.marks⟩)

end Reported

structure Rule where
  name : String
  /-- The node kinds the rule wants to see; all of them if there are none. -/
  kinds : List String
  check : String → Place → Reported → Except Fault (List Diagnostic × Reported)

def Rule.sees (rule : Rule) (place : Place) : Bool :=
  rule.kinds.isEmpty || rule.kinds.contains place.kind

end NameLint
