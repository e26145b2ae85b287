import NameLint.Tree.Cursor

/-!
# Moves

What a walk and an outline ask of a cursor, whatever it is made of. It is on a place, and its moves
lead where their names say. A move that leads nowhere leaves it where it is, and from the place it
was set on it goes neither beside nor above.
-/

namespace NameLint

set_option autoImplicit false

structure Moves (State : Type) where
  place : State → Place
  /-- The place that the cursor was set on. -/
  origin : State → Place
  firstChild? : State → Option State
  nextSibling? : State → Option State
  parent? : State → Option State
  place_firstChild? (state : State) : (firstChild? state).map place = (place state).child? 0
  place_nextSibling? (state : State) (below : place state ≠ origin state) :
    (nextSibling? state).map place = (place state).nextSibling
  place_parent? (state : State) (below : place state ≠ origin state) :
    (parent? state).map place = (place state).parent
  nextSibling?_origin (state : State) (back : place state = origin state) :
    nextSibling? state = none
  parent?_origin (state : State) (back : place state = origin state) : parent? state = none
  origin_firstChild? {state next : State} (moved : firstChild? state = some next) :
    origin next = origin state
  origin_nextSibling? {state next : State} (moved : nextSibling? state = some next) :
    origin next = origin state
  origin_parent? {state next : State} (moved : parent? state = some next) :
    origin next = origin state

theorem Place.depth_parent {place parent : Place} (above : place.parent = some parent) :
    parent.depth < place.depth := by
  obtain ⟨tree, trail⟩ := place
  cases trail with
  | nil => cases above
  | cons step trail =>
      cases above
      exact Nat.lt_succ_self _

namespace Moves

variable {State : Type} (moves : Moves State)

theorem depth_parent? {state above : State} (moved : moves.parent? state = some above) :
    (moves.place above).depth < (moves.place state).depth := by
  apply Place.depth_parent
  have below : moves.place state ≠ moves.origin state := by
    intro back
    rw [moves.parent?_origin state back] at moved
    cases moved
  rw [← moves.place_parent? state below, moved]
  rfl

/-- The next sibling of the nearest place above that has one, as far as the cursor climbs. -/
def climb? (state : State) : Option State :=
  match _moved : moves.parent? state with
  | none => none
  | some above =>
      match moves.nextSibling? above with
      | some sibling => some sibling
      | none => climb? above
termination_by (moves.place state).depth
decreasing_by exact moves.depth_parent? _moved

theorem climb?_eq (state : State) :
    moves.climb? state =
      match moves.parent? state with
      | none => none
      | some above =>
          match moves.nextSibling? above with
          | some sibling => some sibling
          | none => moves.climb? above := by
  rw [climb?]
  split
  · next stuck => rw [stuck]
  · next above moved => rw [moved]

def advance? (state : State) : Option State :=
  match moves.firstChild? state with
  | some child => some child
  | none =>
      match moves.nextSibling? state with
      | some sibling => some sibling
      | none => moves.climb? state

/-- What the first `count` steps of a walk visit. A walk that has ended visits nothing more. -/
def visits : Nat → State → List Place
  | 0, _ => []
  | count + 1, state =>
      moves.place state ::
        match moves.advance? state with
        | some next => visits count next
        | none => []

end Moves

namespace Cursor

/-- The tree at the far end of a trail. -/
def outermost (tree : Tree) : List (Tree × Nat) → Tree
  | [] => tree
  | (parent, _) :: trail => outermost parent trail

def origin (cursor : Cursor) : Place :=
  ⟨outermost cursor.tree cursor.trail, cursor.base⟩

theorem place_eq_origin_iff {cursor : Cursor} :
    cursor.place = cursor.origin ↔ cursor.trail = [] := by
  obtain ⟨tree, trail, base⟩ := cursor
  constructor
  · intro back
    have deep := congrArg Place.depth back
    simpa [place, origin, Place.depth] using deep
  · rintro rfl
    rfl

theorem place_firstChild? (cursor : Cursor) :
    cursor.firstChild?.map place = cursor.place.child? 0 := by
  obtain ⟨⟨label, children⟩, trail, base⟩ := cursor
  cases children with
  | nil => rfl
  | cons first rest => rfl

theorem place_nextSibling? (cursor : Cursor) (below : cursor.place ≠ cursor.origin) :
    cursor.nextSibling?.map place = cursor.place.nextSibling := by
  obtain ⟨tree, trail, base⟩ := cursor
  cases trail with
  | nil => exact absurd rfl below
  | cons step trail =>
      simp only [nextSibling?, Option.map_map, Place.nextSibling, place, List.cons_append,
        Place.child?]
      rfl

theorem place_parent? (cursor : Cursor) (below : cursor.place ≠ cursor.origin) :
    cursor.parent?.map place = cursor.place.parent := by
  obtain ⟨tree, trail, base⟩ := cursor
  cases trail with
  | nil => exact absurd rfl below
  | cons step trail => rfl

theorem origin_firstChild? {cursor next : Cursor} (moved : cursor.firstChild? = some next) :
    next.origin = cursor.origin := by
  obtain ⟨⟨label, children⟩, trail, base⟩ := cursor
  cases children with
  | nil => cases moved
  | cons first rest =>
      cases moved
      rfl

theorem origin_nextSibling? {cursor next : Cursor} (moved : cursor.nextSibling? = some next) :
    next.origin = cursor.origin := by
  obtain ⟨tree, trail, base⟩ := cursor
  cases trail with
  | nil => cases moved
  | cons step trail =>
      obtain ⟨sibling, -, rfl⟩ := Option.map_eq_some_iff.1 moved
      rfl

theorem origin_parent? {cursor next : Cursor} (moved : cursor.parent? = some next) :
    next.origin = cursor.origin := by
  obtain ⟨tree, trail, base⟩ := cursor
  cases trail with
  | nil => cases moved
  | cons step trail =>
      cases moved
      rfl

def moves : Moves Cursor where
  place := place
  origin := origin
  firstChild? := firstChild?
  nextSibling? := nextSibling?
  parent? := parent?
  place_firstChild? := place_firstChild?
  place_nextSibling? := place_nextSibling?
  place_parent? := place_parent?
  nextSibling?_origin cursor back := by rw [nextSibling?, place_eq_origin_iff.1 back]
  parent?_origin cursor back := by rw [parent?, place_eq_origin_iff.1 back]
  origin_firstChild? := origin_firstChild?
  origin_nextSibling? := origin_nextSibling?
  origin_parent? := origin_parent?

@[simp] theorem moves_place (cursor : Cursor) : moves.place cursor = cursor.place := rfl

@[simp] theorem moves_origin (cursor : Cursor) : moves.origin cursor = cursor.origin := rfl

@[simp] theorem moves_firstChild? (cursor : Cursor) :
    moves.firstChild? cursor = cursor.firstChild? := rfl

@[simp] theorem moves_nextSibling? (cursor : Cursor) :
    moves.nextSibling? cursor = cursor.nextSibling? := rfl

@[simp] theorem moves_parent? (cursor : Cursor) : moves.parent? cursor = cursor.parent? := rfl

end Cursor

end NameLint
