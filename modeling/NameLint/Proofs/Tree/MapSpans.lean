import NameLint.Proofs.Tree.WellFormed

/-!
# Trees with other spans

When only the spans of a tree change, its places keep their kinds, their fields and the way they
stand to each other.
-/

namespace NameLint

open NameLint.Text

set_option autoImplicit false

namespace Tree

mutual

def mapSpans (change : Span → Span) : Tree → Tree
  | .node label children =>
      .node { label with span := change label.span } (mapSpansOf change children)

def mapSpansOf (change : Span → Span) : List Tree → List Tree
  | [] => []
  | tree :: rest => tree.mapSpans change :: mapSpansOf change rest

end

theorem mapSpansOf_eq (change : Span → Span) (trees : List Tree) :
    mapSpansOf change trees = trees.map (mapSpans change) := by
  induction trees with
  | nil => rfl
  | cons tree rest ih => rw [mapSpansOf, ih, List.map_cons]

@[simp] theorem label_mapSpans (change : Span → Span) (tree : Tree) :
    (tree.mapSpans change).label = { tree.label with span := change tree.label.span } := by
  cases tree
  rfl

theorem children_mapSpans (change : Span → Span) (tree : Tree) :
    (tree.mapSpans change).children = tree.children.map (mapSpans change) := by
  cases tree
  exact mapSpansOf_eq change _

end Tree

namespace Place

variable (change : Span → Span)

def mapSpans (place : Place) : Place :=
  ⟨place.tree.mapSpans change,
    place.above.map fun step => (step.1.mapSpans change, step.2)⟩

@[simp] theorem kind_mapSpans (place : Place) : (place.mapSpans change).kind = place.kind := by
  rw [kind, mapSpans, Tree.label_mapSpans]
  rfl

@[simp] theorem span_mapSpans (place : Place) :
    (place.mapSpans change).span = change place.span := by
  rw [span, mapSpans, Tree.label_mapSpans]
  rfl

@[simp] theorem address_mapSpans (place : Place) :
    (place.mapSpans change).address = place.address := by
  simp [address, mapSpans, Function.comp_def]

theorem root_mapSpans (tree : Tree) : (root tree).mapSpans change = root (tree.mapSpans change) :=
  rfl

@[simp] theorem parent_mapSpans (place : Place) :
    (place.mapSpans change).parent = place.parent.map (mapSpans change) := by
  obtain ⟨tree, above⟩ := place
  cases above with
  | nil => rfl
  | cons step rest => rfl

@[simp] theorem children_mapSpans (place : Place) :
    (place.mapSpans change).children = place.children.map (mapSpans change) := by
  apply List.ext_getElem?
  intro number
  rw [getElem?_children, List.getElem?_map, getElem?_children, mapSpans, Tree.children_mapSpans,
    List.getElem?_map, Option.map_map, Option.map_map]
  rfl

theorem preorder_mapSpans (place : Place) :
    (place.mapSpans change).preorder = place.preorder.map (mapSpans change) := by
  induction place using Place.induction with
  | step place ih =>
      rw [preorder_eq, preorder_eq, List.map_cons, descendants, descendants, children_mapSpans,
        List.flatMap_map, List.map_flatMap]
      congr 1
      exact List.flatMap_congr ih

theorem descendants_mapSpans (place : Place) :
    (place.mapSpans change).descendants = place.descendants.map (mapSpans change) := by
  have whole := preorder_mapSpans change place
  rw [preorder_eq, preorder_eq, List.map_cons] at whole
  exact List.tail_eq_of_cons_eq whole

@[simp] theorem childByField_mapSpans (place : Place) (field : String) :
    (place.mapSpans change).childByField field =
      (place.childByField field).map (mapSpans change) := by
  rw [childByField, childByField, children_mapSpans, List.find?_map]
  congr 2
  funext child
  rw [Function.comp_apply, mapSpans, Tree.label_mapSpans]

@[simp] theorem fieldIs_mapSpans (parent place : Place) (field : String) :
    (parent.mapSpans change).fieldIs field (place.mapSpans change) =
      parent.fieldIs field place := by
  rw [fieldIs, fieldIs, childByField_mapSpans, Option.any_map]
  congr 1
  funext child
  rw [address_mapSpans, address_mapSpans]

theorem mem_preorder_mapSpans {tree : Tree} {moved : Place} :
    moved ∈ (root (tree.mapSpans change)).preorder ↔
      ∃ place ∈ (root tree).preorder, place.mapSpans change = moved := by
  rw [← root_mapSpans, preorder_mapSpans, List.mem_map]

end Place

def HasEnd (tree : Tree) (offset : Nat) : Prop :=
  ∃ place ∈ (Place.root tree).preorder, offset = place.span.start ∨ offset = place.span.stop

theorem hasEnd_start {tree : Tree} {place : Place} (within : place ∈ (Place.root tree).preorder) :
    HasEnd tree place.span.start :=
  ⟨place, within, .inl rfl⟩

theorem hasEnd_stop {tree : Tree} {place : Place} (within : place ∈ (Place.root tree).preorder) :
    HasEnd tree place.span.stop :=
  ⟨place, within, .inr rfl⟩

/-- A tree stays well-formed when the ends of its nodes move to boundaries of another text and keep
their order. -/
theorem WellFormed.mapSpans {source code : String} {tree : Tree} (formed : WellFormed source tree)
    {change : Span → Span} {move : Nat → Nat}
    (moves : ∀ place ∈ (Place.root tree).preorder,
      (change place.span).start = move place.span.start ∧
        (change place.span).stop = move place.span.stop)
    (boundary : ∀ offset, HasEnd tree offset → IsBoundary code (move offset))
    (monotone : ∀ left right, HasEnd tree left → HasEnd tree right → left ≤ right →
      move left ≤ move right) :
    WellFormed code (tree.mapSpans change) where
  inside := by
    intro moved movedIn child member
    obtain ⟨place, within, rfl⟩ := (Place.mem_preorder_mapSpans change).1 movedIn
    rw [Place.children_mapSpans, List.mem_map] at member
    obtain ⟨own, ownIn, rfl⟩ := member
    have ownWithin := Place.mem_preorder_of_mem_children within ownIn
    obtain ⟨start, stop⟩ := formed.inside place within own ownIn
    rw [Place.span_mapSpans, Place.span_mapSpans, (moves place within).1, (moves place within).2,
      (moves own ownWithin).1, (moves own ownWithin).2]
    exact ⟨monotone _ _ (hasEnd_start within) (hasEnd_start ownWithin) start,
      monotone _ _ (hasEnd_stop ownWithin) (hasEnd_stop within) stop⟩
  ordered := by
    intro moved movedIn
    obtain ⟨place, within, rfl⟩ := (Place.mem_preorder_mapSpans change).1 movedIn
    rw [Place.children_mapSpans, List.pairwise_map]
    apply (formed.ordered place within).imp_of_mem
    intro left right leftIn rightIn apart
    have leftWithin := Place.mem_preorder_of_mem_children within leftIn
    have rightWithin := Place.mem_preorder_of_mem_children within rightIn
    rw [Place.span_mapSpans, Place.span_mapSpans, (moves left leftWithin).2,
      (moves right rightWithin).1]
    exact monotone _ _ (hasEnd_stop leftWithin) (hasEnd_start rightWithin) apart
  boundary := by
    intro moved movedIn
    obtain ⟨place, within, rfl⟩ := (Place.mem_preorder_mapSpans change).1 movedIn
    rw [Place.span_mapSpans, (moves place within).1, (moves place within).2]
    exact ⟨boundary _ (hasEnd_start within), boundary _ (hasEnd_stop within)⟩

end NameLint
