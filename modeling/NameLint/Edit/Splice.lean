import NameLint.Edit.Diagnostic

/-!
# Applying fixes

Fixes are taken in the order of their first edits, and the source is copied from edit to edit. An
edit that several fixes ask for is made once. A fix is skipped when the first of its edits that is
still to be made lies before the end of the last edit made.
-/

namespace NameLint

open NameLint.Text

set_option autoImplicit false

/-- A source copied up to `position`, with the edits made so far. -/
structure Splice where
  output : String := ""
  position : Option Nat := none
  applied : List Edit := []
  fixed : Nat := 0
deriving DecidableEq, Repr

namespace Splice

def reached (splice : Splice) : Nat :=
  splice.position.getD 0

def edit (source : String) (splice : Splice) (edit : Edit) : Except Fault Splice := do
  let kept ← cut source splice.reached edit.span.start
  return { splice with
    output := splice.output ++ kept ++ edit.inserted
    position := some edit.span.stop
    applied := edit :: splice.applied }

def fix (source : String) (splice : Splice) (fix : Fix) : Except Fault Splice :=
  match fix.edits.filter (· ∉ splice.applied) with
  | [] => .ok splice
  | first :: rest =>
      if splice.position.any (first.span.start < ·) then .ok splice
      else do
        let splice ← (first :: rest).foldlM (edit source) splice
        return { splice with fixed := splice.fixed + 1 }

def finish (source : String) (splice : Splice) : Except Fault String := do
  return splice.output ++ (← cutFrom source splice.reached)

end Splice

structure Fixed where
  code : String
  count : Nat
deriving DecidableEq, Repr

/-- The fixes of at least the required level, in the order in which they are tried. -/
def applicableFixes (diagnostics : List Diagnostic) (required : Applicability) : List Fix :=
  ((diagnostics.filterMap (·.fix)).filter (·.applies required)).mergeSort
    fun left right => left.start ≤ right.start

def applyFixes (source : String) (diagnostics : List Diagnostic) (required : Applicability) :
    Except Fault Fixed := do
  let splice ← (applicableFixes diagnostics required).foldlM (Splice.fix source) {}
  return { code := ← splice.finish source, count := splice.fixed }

end NameLint
