import NameLint.Tree.Basic

/-!
# Trees as rows

A tree is written as one line for each node, in pre-order. Tabs stand between the depth of the node,
its kind, its field, the two ends of its span and its flags, `n` for named and `m` for missing.
-/

namespace NameLint.Tree

open NameLint.Text

set_option autoImplicit false

def readRow? (line : String) : Option (Nat × Label) := do
  match line.splitOn "\t" with
  | [depth, kind, field, start, stop, flags] => do
      let span ← (Span.ofBounds (← start.toNat?) (← stop.toNat?)).toOption
      let label : Label :=
        { kind, field := if field.isEmpty then none else some field, span,
          named := flags.contains 'n', missing := flags.contains 'm' }
      return (← depth.toNat?, label)
  | _ => none

def ofText? (text : String) : Option Tree := do
  let lines := (text.splitOn "\n").filter (!·.isEmpty)
  ofRows? (← lines.mapM readRow?)

end NameLint.Tree
