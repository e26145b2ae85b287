import NameLint.Tree.Place

/-!
# Cursors

A cursor moves through the nodes below the place where it was set and never leaves them. A walk goes
on to the first child, else to the next sibling, else climbs until there is one.
-/

namespace NameLint

set_option autoImplicit false

/-- The node under the cursor, the way to it from where the cursor was set, and the way to there. -/
structure Cursor where
  tree : Tree
  trail : List (Tree × Nat)
  base : List (Tree × Nat)

namespace Cursor

def atPlace (place : Place) : Cursor :=
  ⟨place.tree, [], place.above⟩

def place (cursor : Cursor) : Place :=
  ⟨cursor.tree, cursor.trail ++ cursor.base⟩

def firstChild? (cursor : Cursor) : Option Cursor :=
  match cursor.tree.children with
  | [] => none
  | tree :: _ => some ⟨tree, (cursor.tree, 0) :: cursor.trail, cursor.base⟩

def nextSibling? (cursor : Cursor) : Option Cursor :=
  match cursor.trail with
  | [] => none
  | (parent, number) :: trail =>
      parent.children[number + 1]?.map fun tree =>
        ⟨tree, (parent, number + 1) :: trail, cursor.base⟩

def parent? (cursor : Cursor) : Option Cursor :=
  match cursor.trail with
  | [] => none
  | (parent, _) :: trail => some ⟨parent, trail, cursor.base⟩

/-- The next sibling of the nearest node on the trail that has one. -/
def climb? (base : List (Tree × Nat)) : List (Tree × Nat) → Option Cursor
  | [] => none
  | (parent, _) :: trail =>
      match nextSibling? ⟨parent, trail, base⟩ with
      | some cursor => some cursor
      | none => climb? base trail

def advance? (cursor : Cursor) : Option Cursor :=
  match cursor.firstChild? with
  | some child => some child
  | none =>
      match cursor.nextSibling? with
      | some sibling => some sibling
      | none => climb? cursor.base cursor.trail

/-- How many nodes wait to the right of a trail. -/
def pending : List (Tree × Nat) → Nat
  | [] => 0
  | (parent, number) :: trail => Tree.sizes (parent.children.drop (number + 1)) + pending trail

/-- How many nodes the walk has still to visit after this one. -/
def remaining (cursor : Cursor) : Nat :=
  Tree.sizes cursor.tree.children + pending cursor.trail

theorem size_eq (tree : Tree) : tree.size = 1 + Tree.sizes tree.children := by
  cases tree with
  | node label children => simp [Tree.size, Tree.children]

theorem remaining_nextSibling? {cursor next : Cursor} (found : cursor.nextSibling? = some next) :
    next.remaining < pending cursor.trail := by
  obtain ⟨tree, trail, base⟩ := cursor
  match trail with
  | [] => simp [nextSibling?] at found
  | (parent, number) :: trail =>
      simp only [nextSibling?, Option.map_eq_some_iff] at found
      obtain ⟨sibling, present, rfl⟩ := found
      obtain ⟨bound, rfl⟩ := List.getElem?_eq_some_iff.1 present
      simp only [remaining, pending, List.drop_eq_getElem_cons bound, Tree.sizes, size_eq]
      omega

theorem remaining_climb? {base : List (Tree × Nat)} {next : Cursor} {trail : List (Tree × Nat)}
    (found : climb? base trail = some next) : next.remaining < pending trail := by
  induction trail with
  | nil => simp [climb?] at found
  | cons step trail ih =>
      simp only [climb?] at found
      simp only [pending]
      split at found
      · next sibling =>
          cases found
          have := remaining_nextSibling? sibling
          simp only at this
          omega
      · have := ih found
        omega

theorem remaining_advance? {cursor next : Cursor} (found : cursor.advance? = some next) :
    next.remaining < cursor.remaining := by
  unfold advance? at found
  split at found
  · next child first =>
      cases found
      unfold firstChild? at first
      split at first
      · simp at first
      · next tree rest shape =>
          cases first
          simp only [remaining, pending, shape, Tree.sizes, size_eq, List.drop_succ_cons,
            List.drop_zero]
          omega
  · split at found
    · next sibling =>
        cases found
        have := remaining_nextSibling? sibling
        simp only [remaining] at *
        omega
    · have := remaining_climb? found
      simp only [remaining] at *
      omega

/-- The places that were visited, latest first, and those from the cursor on. -/
def collect (visited : List Place) (cursor : Cursor) : List Place :=
  match _found : cursor.advance? with
  | some next => collect (cursor.place :: visited) next
  | none => (cursor.place :: visited).reverse
termination_by cursor.remaining
decreasing_by exact remaining_advance? _found

end Cursor

/-- The place and everything below it, in the order in which a cursor visits them. -/
def Place.walk (place : Place) : List Place :=
  (Cursor.atPlace place).collect []

end NameLint
