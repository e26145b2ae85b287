import Mathlib.Data.List.Basic
import NameLint.Tree.Place

/-!
# The places below a place

A place comes first, then everything below its children, child by child. Relations between two
places of a tree follow from two cases: one lies below the other, or they lie below different
children of a common place.
-/

namespace NameLint

set_option autoImplicit false

@[elab_as_elim]
theorem Tree.induction {motive : Tree → Prop}
    (node : ∀ label children, (∀ child ∈ children, motive child) → motive (.node label children)) :
    ∀ tree, motive tree
  | .node label children => node label children fun child _ => Tree.induction node child

/-- Two items of a list are one item, or the relation of the list holds one way round. -/
theorem eq_or_of_pairwise {Item : Type} {R : Item → Item → Prop} {items : List Item}
    (related : items.Pairwise R) {first second : Item} (firstIn : first ∈ items)
    (secondIn : second ∈ items) : first = second ∨ R first second ∨ R second first := by
  induction related with
  | nil => simp at firstIn
  | cons heads _ ih =>
      rcases List.mem_cons.1 firstIn with rfl | firstLater
      · rcases List.mem_cons.1 secondIn with rfl | secondLater
        · exact .inl rfl
        · exact .inr (.inl (heads second secondLater))
      · rcases List.mem_cons.1 secondIn with rfl | secondLater
        · exact .inr (.inr (heads first firstLater))
        · exact ih firstLater secondLater

namespace Place

section Children

theorem childrenFrom_eq (place : Place) (number : Nat) (trees : List Tree) :
    place.childrenFrom number trees =
      trees.mapIdx fun offset tree => ⟨tree, (place.tree, number + offset) :: place.above⟩ := by
  induction trees generalizing number with
  | nil => rfl
  | cons tree rest ih =>
      rw [childrenFrom, ih, List.mapIdx_cons]
      simp only [Nat.add_zero, List.cons.injEq, true_and]
      congr 1
      funext offset child
      rw [show number + 1 + offset = number + (offset + 1) by omega]

theorem getElem?_children (place : Place) (number : Nat) :
    place.children[number]? = place.tree.children[number]?.map fun tree =>
      ⟨tree, (place.tree, number) :: place.above⟩ := by
  rw [children, childrenFrom_eq, List.getElem?_mapIdx]
  simp

theorem map_tree_children (place : Place) : place.children.map tree = place.tree.children := by
  apply List.ext_getElem?
  intro number
  rw [List.getElem?_map, getElem?_children, Option.map_map]
  exact Option.map_id'

theorem mem_children {place child : Place} :
    child ∈ place.children ↔ ∃ number, place.tree.children[number]? = some child.tree ∧
      child.above = (place.tree, number) :: place.above := by
  rw [List.mem_iff_getElem?]
  simp only [getElem?_children, Option.map_eq_some_iff]
  constructor
  · rintro ⟨number, tree, found, rfl⟩
    exact ⟨number, found, rfl⟩
  · rintro ⟨number, found, way⟩
    obtain ⟨tree, above⟩ := child
    exact ⟨number, tree, found, by rw [← way]⟩

theorem parent_of_mem_children {place child : Place} (member : child ∈ place.children) :
    child.parent = some place := by
  obtain ⟨number, -, way⟩ := mem_children.1 member
  rw [parent, way]

theorem children_address_distinct (place : Place) :
    place.children.Pairwise fun left right => left.address ≠ right.address := by
  rw [List.pairwise_iff_getElem]
  intro left right leftBound rightBound ordered same
  have leftChild := getElem?_children place left
  have rightChild := getElem?_children place right
  rw [List.getElem?_eq_getElem leftBound] at leftChild
  rw [List.getElem?_eq_getElem rightBound] at rightChild
  obtain ⟨leftTree, -, leftShape⟩ := Option.map_eq_some_iff.1 leftChild.symm
  obtain ⟨rightTree, -, rightShape⟩ := Option.map_eq_some_iff.1 rightChild.symm
  rw [← leftShape, ← rightShape] at same
  simp only [address, List.map_cons, List.cons.injEq] at same
  omega

end Children

def descendants (place : Place) : List Place :=
  place.children.flatMap preorder

theorem preorderOf_eq (parent : Tree) (above : List (Tree × Nat)) (number : Nat)
    (trees : List Tree) :
    preorderOf parent above number trees =
      (childrenFrom ⟨parent, above⟩ number trees).flatMap preorder := by
  induction trees generalizing number with
  | nil => rfl
  | cons tree rest ih => rw [preorderOf, childrenFrom, List.flatMap_cons, ih, preorder]

theorem preorder_eq (place : Place) : place.preorder = place :: place.descendants := by
  obtain ⟨⟨label, children⟩, above⟩ := place
  rw [preorder, preorderFrom, preorderOf_eq]
  rfl

@[elab_as_elim]
theorem induction {motive : Place → Prop}
    (step : ∀ place, (∀ child ∈ place.children, motive child) → motive place) (place : Place) :
    motive place := by
  obtain ⟨tree, above⟩ := place
  induction tree using Tree.induction generalizing above with
  | node label children ih =>
      apply step
      intro child member
      obtain ⟨number, found, -⟩ := mem_children.1 member
      exact ih child.tree (List.mem_of_getElem? found) child.above

theorem mem_preorder_self (place : Place) : place ∈ place.preorder := by
  rw [preorder_eq]
  exact List.mem_cons_self

theorem mem_preorder_iff {place other : Place} :
    other ∈ place.preorder ↔ other = place ∨ other ∈ place.descendants := by
  rw [preorder_eq, List.mem_cons]

theorem mem_descendants_iff {place other : Place} :
    other ∈ place.descendants ↔ ∃ child ∈ place.children, other ∈ child.preorder := by
  rw [descendants, List.mem_flatMap]

theorem mem_descendants_of_mem_children {place child : Place} (member : child ∈ place.children) :
    child ∈ place.descendants :=
  mem_descendants_iff.2 ⟨child, member, mem_preorder_self child⟩

theorem mem_preorder_trans {first second third : Place} (upper : second ∈ first.preorder)
    (lower : third ∈ second.preorder) : third ∈ first.preorder := by
  induction first using Place.induction with
  | step place ih =>
      rcases mem_preorder_iff.1 upper with rfl | below
      · exact lower
      · obtain ⟨child, member, inside⟩ := mem_descendants_iff.1 below
        exact mem_preorder_iff.2
          (.inr (mem_descendants_iff.2 ⟨child, member, ih child member inside⟩))

theorem mem_preorder_of_mem_children {start place child : Place} (within : place ∈ start.preorder)
    (member : child ∈ place.children) : child ∈ start.preorder :=
  mem_preorder_trans within (mem_preorder_iff.2 (.inr (mem_descendants_of_mem_children member)))

theorem exists_parent {start place : Place} (within : place ∈ start.preorder) :
    place = start ∨ ∃ parent ∈ start.preorder, place ∈ parent.children := by
  induction start using Place.induction with
  | step start ih =>
      rcases mem_preorder_iff.1 within with same | below
      · exact .inl same
      · obtain ⟨child, member, inside⟩ := mem_descendants_iff.1 below
        rcases ih child member inside with rfl | ⟨parent, held, own⟩
        · exact .inr ⟨start, mem_preorder_self start, member⟩
        · exact .inr ⟨parent, mem_preorder_trans
            (mem_preorder_of_mem_children (mem_preorder_self start) member) held, own⟩

theorem parent_mem {tree : Tree} {place parent : Place}
    (within : place ∈ (root tree).preorder) (above : place.parent = some parent) :
    parent ∈ (root tree).preorder ∧ place ∈ parent.children := by
  rcases exists_parent within with rfl | ⟨holder, held, own⟩
  · simp [root, Place.parent] at above
  · have same := parent_of_mem_children own
    rw [above] at same
    cases same
    exact ⟨held, own⟩

/-- What holds of each place and all below it, and across the children of each place, holds of any
two places in pre-order. -/
theorem preorder_pairwise {R : Place → Place → Prop} (start : Place)
    (downward : ∀ place ∈ start.preorder, ∀ below ∈ place.descendants, R place below)
    (across : ∀ place ∈ start.preorder, place.children.Pairwise fun left right =>
      ∀ first ∈ left.preorder, ∀ second ∈ right.preorder, R first second) :
    start.preorder.Pairwise R := by
  induction start using Place.induction with
  | step start ih =>
      have self := mem_preorder_self start
      rw [preorder_eq, List.pairwise_cons, descendants, List.pairwise_flatMap]
      refine ⟨downward start self, ?_, across start self⟩
      intro child member
      have inside : ∀ place ∈ child.preorder, place ∈ start.preorder := fun place held =>
        mem_preorder_trans (mem_preorder_of_mem_children self member) held
      exact ih child member (fun place held => downward place (inside place held))
        (fun place held => across place (inside place held))

/-- The place is `start` or lies below it. -/
inductive Within (start : Place) : Place → Prop
  | here : Within start start
  | child {place child : Place} (within : Within start place) (member : child ∈ place.children) :
      Within start child

theorem Within.of_child {start child place : Place} (member : child ∈ start.children)
    (within : child.Within place) : start.Within place := by
  induction within with
  | here => exact .child .here member
  | child _ own ih => exact .child ih own

theorem mem_preorder_iff_within {start place : Place} :
    place ∈ start.preorder ↔ start.Within place := by
  constructor
  · intro inside
    induction start using Place.induction with
    | step start ih =>
        rcases mem_preorder_iff.1 inside with rfl | below
        · exact .here
        · rcases mem_descendants_iff.1 below with ⟨child, member, held⟩
          exact .of_child member (ih child member held)
  · intro within
    induction within with
    | here => exact mem_preorder_self start
    | child _ member ih => exact mem_preorder_of_mem_children ih member

section Depth

theorem depth_of_mem_children {place child : Place} (member : child ∈ place.children) :
    child.depth = place.depth + 1 := by
  rcases mem_children.1 member with ⟨number, -, way⟩
  rw [depth, way, List.length_cons, depth]

theorem Within.depth_le {start place : Place} (within : start.Within place) :
    start.depth ≤ place.depth := by
  induction within with
  | here => exact Nat.le_refl _
  | child _ member ih =>
      rw [depth_of_mem_children member]
      exact Nat.le_succ_of_le ih

theorem Within.eq_of_depth_le {start place : Place} (within : start.Within place)
    (high : place.depth ≤ start.depth) : place = start := by
  cases within with
  | here => rfl
  | child within member =>
      have deep := within.depth_le
      rw [depth_of_mem_children member] at high
      omega

end Depth

section Size

mutual

theorem length_preorderFrom (above : List (Tree × Nat)) :
    ∀ tree, (preorderFrom above tree).length = tree.size
  | .node label children => by
      rw [preorderFrom, List.length_cons, length_preorderOf, Tree.size, Nat.add_comm]

theorem length_preorderOf (parent : Tree) (above : List (Tree × Nat)) (number : Nat) :
    ∀ trees, (preorderOf parent above number trees).length = Tree.sizes trees
  | [] => rfl
  | tree :: rest => by
      rw [preorderOf, List.length_append, length_preorderFrom, length_preorderOf, Tree.sizes]

end

theorem length_preorder (place : Place) : place.preorder.length = place.tree.size :=
  length_preorderFrom place.above place.tree

end Size

section Labels

mutual

theorem map_label_preorderFrom (above : List (Tree × Nat)) :
    ∀ tree, (preorderFrom above tree).map (·.tree.label) = tree.labels
  | .node label children => by
      rw [preorderFrom, List.map_cons, map_label_preorderOf, Tree.labels, Tree.label]

theorem map_label_preorderOf (parent : Tree) (above : List (Tree × Nat)) (number : Nat) :
    ∀ trees, (preorderOf parent above number trees).map (·.tree.label) = Tree.labelsOf trees
  | [] => rfl
  | tree :: rest => by
      rw [preorderOf, List.map_append, map_label_preorderFrom, map_label_preorderOf, Tree.labelsOf]

end

theorem label_mem_labels {start place : Place} (inside : place ∈ start.preorder) :
    place.tree.label ∈ start.tree.labels := by
  rw [← map_label_preorderFrom start.above]
  exact List.mem_map_of_mem inside

end Labels

section Address

theorem address_of_mem_preorder {start place : Place} (within : place ∈ start.preorder) :
    ∃ path, place.address = path ++ start.address := by
  induction start using Place.induction with
  | step start ih =>
      rcases mem_preorder_iff.1 within with rfl | below
      · exact ⟨[], rfl⟩
      · obtain ⟨child, member, inside⟩ := mem_descendants_iff.1 below
        obtain ⟨path, extended⟩ := ih child member inside
        obtain ⟨number, -, way⟩ := mem_children.1 member
        refine ⟨path ++ [number], ?_⟩
        rw [extended]
        simp [address, way]

theorem address_ne_of_mem_descendants {place below : Place} (member : below ∈ place.descendants) :
    place.address ≠ below.address := by
  obtain ⟨child, own, inside⟩ := mem_descendants_iff.1 member
  obtain ⟨path, extended⟩ := address_of_mem_preorder inside
  obtain ⟨number, -, way⟩ := mem_children.1 own
  intro same
  have lengths := congrArg List.length (same.trans extended)
  simp only [address, way, List.map_cons, List.length_append, List.length_cons] at lengths
  omega

theorem preorder_address_distinct (start : Place) :
    start.preorder.Pairwise fun first second => first.address ≠ second.address := by
  apply preorder_pairwise
  · intro place _ below member
    exact address_ne_of_mem_descendants member
  · intro place _
    apply List.Pairwise.imp_of_mem _ place.children_address_distinct
    intro left right leftMember rightMember different first firstInside second secondInside same
    obtain ⟨leftPath, leftWay⟩ := address_of_mem_preorder firstInside
    obtain ⟨rightPath, rightWay⟩ := address_of_mem_preorder secondInside
    obtain ⟨leftNumber, -, leftAbove⟩ := mem_children.1 leftMember
    obtain ⟨rightNumber, -, rightAbove⟩ := mem_children.1 rightMember
    have sameEnds : leftPath ++ left.address = rightPath ++ right.address :=
      leftWay.symm.trans (same.trans rightWay)
    apply different
    exact List.append_inj_right' sameEnds (by simp [address, leftAbove, rightAbove])

theorem eq_of_address_eq {start first second : Place} (firstIn : first ∈ start.preorder)
    (secondIn : second ∈ start.preorder) (same : first.address = second.address) :
    first = second := by
  rcases eq_or_of_pairwise (preorder_address_distinct start) firstIn secondIn with
    equal | different | different
  · exact equal
  · exact absurd same different
  · exact absurd same.symm different

end Address

end Place

end NameLint
