import NameLint.Lint.Rule
import NameLint.Tree.Cursor

/-!
# The linter

A linter shows each rule the places it wants to see, in the order of a walk through the tree and, at
one place, in the order of the rules. What the rules report comes out sorted by span; reports of one
span keep the order in which they were made.
-/

namespace NameLint

set_option autoImplicit false

structure Linter where
  rules : List Rule

structure Findings where
  diagnostics : Array Diagnostic := #[]
  reported : Reported := {}

namespace Linter

/-- The places and the rules that see them, in the order in which they meet. -/
def encounters (linter : Linter) (places : List Place) : List (Place × Rule) :=
  places.flatMap fun place => (linter.rules.filter (·.sees place)).map (place, ·)

def encounter (source : String) (findings : Findings) (met : Place × Rule) :
    Except Fault Findings := do
  let (found, reported) ← met.2.check source met.1 findings.reported
  return { diagnostics := findings.diagnostics ++ found, reported }

def report (linter : Linter) (source : String) (tree : Tree) : Except Fault (List Diagnostic) := do
  let met := linter.encounters (Place.root tree).walk
  return (← met.foldlM (encounter source) {}).diagnostics.toList

def check (linter : Linter) (source : String) (tree : Tree) : Except Fault (List Diagnostic) := do
  return (← linter.report source tree).mergeSort fun left right => left.span.precedes right.span

end Linter

end NameLint
