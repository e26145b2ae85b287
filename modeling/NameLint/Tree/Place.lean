import NameLint.Tree.Basic

/-!
# Places in a tree

A place is a node together with the way down to it, so that it knows its parent. Within one tree a
place is told from the others by its address, the child numbers on that way.
-/

namespace NameLint

open NameLint.Text

set_option autoImplicit false

/-- A node, and above it every ancestor with the number of the child that leads here, parent
first. -/
structure Place where
  tree : Tree
  above : List (Tree × Nat)

namespace Place

def root (tree : Tree) : Place :=
  ⟨tree, []⟩

def kind (place : Place) : String :=
  place.tree.label.kind

def span (place : Place) : Span :=
  place.tree.label.span

def isNamed (place : Place) : Bool :=
  place.tree.label.named

/-- The source text that the node covers. -/
def text (source : String) (place : Place) : Except Fault String :=
  place.span.text source

def address (place : Place) : List Nat :=
  place.above.map (·.2)

def depth (place : Place) : Nat :=
  place.above.length

def parent (place : Place) : Option Place :=
  match place.above with
  | [] => none
  | (tree, _) :: above => some ⟨tree, above⟩

def child? (place : Place) (number : Nat) : Option Place :=
  place.tree.children[number]?.map fun tree => ⟨tree, (place.tree, number) :: place.above⟩

/-- The trees as children of `place`, counted from `number`. -/
def childrenFrom (place : Place) (number : Nat) : List Tree → List Place
  | [] => []
  | tree :: rest =>
      ⟨tree, (place.tree, number) :: place.above⟩ :: childrenFrom place (number + 1) rest

def children (place : Place) : List Place :=
  place.childrenFrom 0 place.tree.children

def namedChildren (place : Place) : List Place :=
  place.children.filter isNamed

def nextSibling (place : Place) : Option Place :=
  match place.above with
  | [] => none
  | (tree, number) :: above => child? ⟨tree, above⟩ (number + 1)

/-- The first child in the field. -/
def childByField (place : Place) (field : String) : Option Place :=
  place.children.find? fun child => child.tree.label.field == some field

/-- Whether `other` is the first child in the field. -/
def fieldIs (place : Place) (field : String) (other : Place) : Bool :=
  (place.childByField field).any fun child => child.address == other.address

mutual

/-- The places of a tree and below, in pre-order. -/
def preorderFrom (above : List (Tree × Nat)) : Tree → List Place
  | .node label children =>
      ⟨.node label children, above⟩ :: preorderOf (.node label children) above 0 children

def preorderOf (parent : Tree) (above : List (Tree × Nat)) (number : Nat) :
    List Tree → List Place
  | [] => []
  | tree :: rest =>
      preorderFrom ((parent, number) :: above) tree ++ preorderOf parent above (number + 1) rest

end

def preorder (place : Place) : List Place :=
  preorderFrom place.above place.tree

/-- How many nodes of the whole tree come before the place in pre-order. -/
def index (place : Place) : Nat :=
  place.above.foldl
    (fun before step => before + 1 + Tree.sizes (step.1.children.take step.2)) 0

end Place

end NameLint
