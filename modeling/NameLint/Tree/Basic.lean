import NameLint.Text.Span

/-!
# Syntax trees

A syntax tree is what a parser makes of a source: ordered nodes with a kind and a span, tokens
included. A parser recovers from errors by nodes of kind `ERROR` and by missing tokens, which it
puts in without any text.
-/

namespace NameLint

open NameLint.Text

set_option autoImplicit false

structure Label where
  kind : String
  /-- The role that the node has among the children of its parent, by the grammar. -/
  field : Option String
  span : Span
  named : Bool
  missing : Bool
deriving DecidableEq, Repr

inductive Tree where
  | node (label : Label) (children : List Tree)

namespace Tree

def label : Tree → Label
  | .node label _ => label

def children : Tree → List Tree
  | .node _ children => children

mutual

def size : Tree → Nat
  | .node _ children => 1 + sizes children

def sizes : List Tree → Nat
  | [] => 0
  | tree :: rest => tree.size + sizes rest

end

mutual

def labels : Tree → List Label
  | .node label children => label :: labelsOf children

def labelsOf : List Tree → List Label
  | [] => []
  | tree :: rest => tree.labels ++ labelsOf rest

end

def hasErrors (tree : Tree) : Bool :=
  tree.labels.any fun label => label.kind == "ERROR" || label.missing

/-- Puts a node before the trees that follow it in pre-order and takes the children from them. -/
def gather (row : Nat × Label) (following : List (Nat × Tree)) : List (Nat × Tree) :=
  let (below, rest) := following.span fun later => later.1 == row.1 + 1
  (row.1, .node row.2 (below.map (·.2))) :: rest

/-- The tree whose nodes are listed in pre-order, each with its depth. -/
def ofRows? (rows : List (Nat × Label)) : Option Tree :=
  match rows.foldr gather [] with
  | [(0, tree)] => some tree
  | _ => none

end Tree

end NameLint
