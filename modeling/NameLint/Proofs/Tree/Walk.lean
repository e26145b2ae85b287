import NameLint.Proofs.Tree.Preorder
import NameLint.Tree.Cursor

/-!
# The walk of a cursor

A cursor has ahead of it the place it is at, everything below, and everything that waits to the
right of its trail. One step of the walk takes the first of these away, so the whole walk visits
exactly the pre-order.
-/

namespace NameLint

set_option autoImplicit false

namespace Cursor

/-- The places to the right of a trail, the nearest siblings first. -/
def waiting (base : List (Tree × Nat)) : List (Tree × Nat) → List Place
  | [] => []
  | (parent, number) :: trail =>
      Place.preorderOf parent (trail ++ base) (number + 1) (parent.children.drop (number + 1)) ++
        waiting base trail

/-- What a walk still visits, the place of the cursor included. -/
def ahead (cursor : Cursor) : List Place :=
  cursor.place.preorder ++ waiting cursor.base cursor.trail

theorem waiting_eq_of_nextSibling? {cursor next : Cursor}
    (found : cursor.nextSibling? = some next) : waiting cursor.base cursor.trail = next.ahead := by
  obtain ⟨tree, trail, base⟩ := cursor
  cases trail with
  | nil => simp [nextSibling?] at found
  | cons step trail =>
      obtain ⟨sibling, present, rfl⟩ := Option.map_eq_some_iff.1 found
      obtain ⟨bound, rfl⟩ := List.getElem?_eq_some_iff.1 present
      simp only [waiting, List.drop_eq_getElem_cons bound, Place.preorderOf, List.append_assoc]
      rfl

theorem waiting_eq_of_nextSibling?_eq_none {cursor : Cursor}
    (missing : cursor.nextSibling? = none) :
    waiting cursor.base cursor.trail = waiting cursor.base cursor.trail.tail := by
  obtain ⟨tree, trail, base⟩ := cursor
  cases trail with
  | nil => rfl
  | cons step trail =>
      have absent := List.getElem?_eq_none_iff.1 (Option.map_eq_none_iff.1 missing)
      simp [waiting, List.drop_eq_nil_of_le absent, Place.preorderOf]

/-- A climb finds what waits above the innermost node of the trail. -/
theorem waiting_tail_eq (base : List (Tree × Nat)) (trail : List (Tree × Nat)) :
    waiting base trail.tail = ((climb? base trail).map ahead).getD [] := by
  induction trail with
  | nil => rfl
  | cons step trail ih =>
      simp only [climb?, List.tail_cons]
      split
      · next next found => exact waiting_eq_of_nextSibling? found
      · next missing => exact (waiting_eq_of_nextSibling?_eq_none missing).trans ih

theorem preorder_of_firstChild?_eq_none {cursor : Cursor} (missing : cursor.firstChild? = none) :
    cursor.place.preorder = [cursor.place] := by
  obtain ⟨⟨label, children⟩, trail, base⟩ := cursor
  cases children with
  | nil => rfl
  | cons first rest => simp [firstChild?, Tree.children] at missing

theorem ahead_of_firstChild? {cursor next : Cursor} (found : cursor.firstChild? = some next) :
    cursor.ahead = cursor.place :: next.ahead := by
  obtain ⟨⟨label, children⟩, trail, base⟩ := cursor
  cases children with
  | nil => simp [firstChild?, Tree.children] at found
  | cons first rest =>
      simp only [firstChild?, Tree.children, Option.some.injEq] at found
      subst found
      simp only [ahead, waiting, place, Place.preorder, Place.preorderFrom, Place.preorderOf,
        Tree.children, List.drop_succ_cons, List.drop_zero, List.cons_append, List.append_assoc]

/-- One step of the walk leaves ahead all but the place it starts from. -/
theorem ahead_eq (cursor : Cursor) :
    cursor.ahead = cursor.place :: (cursor.advance?.map ahead).getD [] := by
  unfold advance?
  split
  · next child found => exact ahead_of_firstChild? found
  · next leaf =>
      rw [ahead, preorder_of_firstChild?_eq_none leaf, List.singleton_append]
      split
      · next sibling found => rw [waiting_eq_of_nextSibling? found]; rfl
      · next missing => rw [waiting_eq_of_nextSibling?_eq_none missing, waiting_tail_eq]

theorem collect_eq (visited : List Place) (cursor : Cursor) :
    collect visited cursor = visited.reverse ++ cursor.ahead := by
  induction visited, cursor using collect.induct with
  | case1 visited cursor next found ih =>
      rw [collect, found]
      simp only
      rw [ih, ahead_eq cursor, found]
      simp
  | case2 visited cursor missing =>
      rw [collect, missing, ahead_eq cursor, missing]
      simp

end Cursor

theorem Place.walk_eq_preorder (place : Place) : place.walk = place.preorder := by
  rw [walk, Cursor.collect_eq]
  simp [Cursor.ahead, Cursor.waiting, Cursor.atPlace, Cursor.place]

end NameLint
