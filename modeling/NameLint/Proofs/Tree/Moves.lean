import NameLint.Proofs.Tree.Walk
import NameLint.Tree.Moves

/-!
# Cursors that move alike

Two cursors that are on one place, and were set on one place, move to one place again, whatever they
are made of. So each of them walks as the other does, and what is known of the walk of one cursor
is known of all.
-/

namespace NameLint

set_option autoImplicit false

section Answers

variable {First Second : Type} {R : First → Second → Prop} {answer : Option First}
  {answer' : Option Second}

theorem exists_of_rel (related : Option.Rel R answer answer') {first : First}
    (found : answer = some first) : ∃ second, answer' = some second ∧ R first second := by
  cases related with
  | none => cases found
  | some related =>
      cases found
      exact ⟨_, rfl, related⟩

theorem eq_none_of_rel (related : Option.Rel R answer answer') (missing : answer = none) :
    answer' = none := by
  cases related with
  | none => rfl
  | some related => cases missing

end Answers

namespace Moves

section Agreement

variable {Left Right : Type} {left : Moves Left} {right : Moves Right}

/-- The cursors are on one place and were set on one place. -/
structure Agree (left : Moves Left) (right : Moves Right) (first : Left) (second : Right) :
    Prop where
  place : left.place first = right.place second
  origin : left.origin first = right.origin second

theorem rel_agree_of_map_eq {first : Option Left} {second : Option Right} {origin : Place}
    (same : first.map left.place = second.map right.place)
    (leftKept : ∀ {next}, first = some next → left.origin next = origin)
    (rightKept : ∀ {next}, second = some next → right.origin next = origin) :
    Option.Rel (Agree left right) first second := by
  cases first with
  | none =>
      cases second with
      | none => exact .none
      | some next => cases same
  | some next =>
      cases second with
      | none => cases same
      | some next' =>
          exact .some ⟨Option.some.inj same, (leftKept rfl).trans (rightKept rfl).symm⟩

variable {first : Left} {second : Right}

theorem Agree.isBack_iff (agree : Agree left right first second) :
    left.place first = left.origin first ↔ right.place second = right.origin second := by
  rw [agree.place, agree.origin]

theorem Agree.firstChild? (agree : Agree left right first second) :
    Option.Rel (Agree left right) (left.firstChild? first) (right.firstChild? second) := by
  apply rel_agree_of_map_eq _ left.origin_firstChild?
  · exact fun moved => (right.origin_firstChild? moved).trans agree.origin.symm
  · rw [left.place_firstChild?, right.place_firstChild?, agree.place]

theorem Agree.nextSibling? (agree : Agree left right first second) :
    Option.Rel (Agree left right) (left.nextSibling? first) (right.nextSibling? second) := by
  apply rel_agree_of_map_eq _ left.origin_nextSibling?
  · exact fun moved => (right.origin_nextSibling? moved).trans agree.origin.symm
  · by_cases back : left.place first = left.origin first
    · rw [left.nextSibling?_origin first back,
        right.nextSibling?_origin second (agree.isBack_iff.1 back)]
      rfl
    · rw [left.place_nextSibling? first back,
        right.place_nextSibling? second (mt agree.isBack_iff.2 back), agree.place]

theorem Agree.parent? (agree : Agree left right first second) :
    Option.Rel (Agree left right) (left.parent? first) (right.parent? second) := by
  apply rel_agree_of_map_eq _ left.origin_parent?
  · exact fun moved => (right.origin_parent? moved).trans agree.origin.symm
  · by_cases back : left.place first = left.origin first
    · rw [left.parent?_origin first back, right.parent?_origin second (agree.isBack_iff.1 back)]
      rfl
    · rw [left.place_parent? first back,
        right.place_parent? second (mt agree.isBack_iff.2 back), agree.place]

theorem Agree.climb? (agree : Agree left right first second) :
    Option.Rel (Agree left right) (left.climb? first) (right.climb? second) := by
  -- by the climb of the left cursor; the right one is led along, a level at a time
  induction first using Moves.climb?.induct left generalizing second with
  | case1 first stuck =>
      rw [climb?_eq, climb?_eq, stuck, eq_none_of_rel agree.parent? stuck]
      exact .none
  | case2 first above moved sibling found =>
      rcases exists_of_rel agree.parent? moved with ⟨above', moved', agreeAbove⟩
      rcases exists_of_rel agreeAbove.nextSibling? found with ⟨sibling', found', agreeSibling⟩
      rw [climb?_eq, climb?_eq]
      simp only [moved, moved', found, found']
      exact .some agreeSibling
  | case3 first above moved missing ih =>
      rcases exists_of_rel agree.parent? moved with ⟨above', moved', agreeAbove⟩
      have missing' := eq_none_of_rel agreeAbove.nextSibling? missing
      rw [climb?_eq, climb?_eq]
      simp only [moved, moved', missing, missing']
      exact ih agreeAbove

theorem Agree.advance? (agree : Agree left right first second) :
    Option.Rel (Agree left right) (left.advance? first) (right.advance? second) := by
  unfold Moves.advance?
  cases down : left.firstChild? first with
  | some child =>
      rcases exists_of_rel agree.firstChild? down with ⟨child', down', agreeChild⟩
      rw [down']
      exact .some agreeChild
  | none =>
      rw [eq_none_of_rel agree.firstChild? down]
      cases beside : left.nextSibling? first with
      | some sibling =>
          rcases exists_of_rel agree.nextSibling? beside with ⟨sibling', beside', agreeSibling⟩
          rw [beside']
          exact .some agreeSibling
      | none =>
          rw [eq_none_of_rel agree.nextSibling? beside]
          exact agree.climb?

theorem Agree.visits_eq (agree : Agree left right first second) (count : Nat) :
    left.visits count first = right.visits count second := by
  induction count generalizing first second with
  | zero => rfl
  | succ count ih =>
      rw [visits, visits, agree.place]
      cases moved : left.advance? first with
      | none => rw [eq_none_of_rel agree.advance? moved]
      | some next =>
          rcases exists_of_rel agree.advance? moved with ⟨next', moved', agreeNext⟩
          simp only [moved', ih agreeNext]

end Agreement

end Moves

namespace Cursor

theorem moves_climb? (tree : Tree) (base trail : List (Tree × Nat)) :
    moves.climb? ⟨tree, trail, base⟩ = climb? base trail := by
  induction trail generalizing tree with
  | nil => rw [Moves.climb?_eq, moves_parent?, parent?, climb?]
  | cons step trail ih =>
      rw [Moves.climb?_eq, climb?, moves_parent?, parent?]
      simp only [moves_nextSibling?, ih]
      cases nextSibling? ⟨step.1, trail, base⟩ with
      | none => rfl
      | some sibling => rfl

theorem moves_advance? (cursor : Cursor) : moves.advance? cursor = cursor.advance? := by
  rw [Moves.advance?, advance?, moves_firstChild?, moves_nextSibling?, moves_climb?]
  cases cursor.firstChild? with
  | some child => rfl
  | none =>
      cases cursor.nextSibling? with
      | some sibling => rfl
      | none => rfl

theorem moves_visits (count : Nat) (cursor : Cursor) :
    moves.visits count cursor = cursor.ahead.take count := by
  induction count generalizing cursor with
  | zero => rfl
  | succ count ih =>
      rw [Moves.visits, moves_advance?, ahead_eq, List.take_succ_cons, moves_place]
      cases cursor.advance? with
      | none => simp
      | some next => simp [ih]

end Cursor

/-- A cursor that is on the place it was set on has the whole of its walk before it. -/
theorem Moves.visits_eq {State : Type} (moves : Moves State) {cursor : State} {start : Place}
    (placed : moves.place cursor = start) (home : moves.origin cursor = start) (count : Nat) :
    moves.visits count cursor = start.walk.take count := by
  have agree : Agree moves Cursor.moves cursor (Cursor.atPlace start) := ⟨placed, home⟩
  rw [agree.visits_eq, Cursor.moves_visits, Place.walk, Cursor.collect_eq, List.reverse_nil,
    List.nil_append]

theorem Place.walk_eq (start : Place) :
    start.walk = start :: start.children.flatMap Place.walk := by
  have same : Place.walk = Place.preorder := funext Place.walk_eq_preorder
  rw [same, Place.preorder_eq, Place.descendants]

/-- However many steps a walk takes, it visits the start, then all below each child in turn, each
place once, and then nothing more. It comes upon no place beside the start and on none above. -/
theorem walk_visits_the_places_below {State : Type} (moves : Moves State) {cursor : State}
    {start : Place} (placed : moves.place cursor = start) (home : moves.origin cursor = start) :
    (∀ count, moves.visits count cursor = start.walk.take count) ∧
      start.walk.length = start.tree.size ∧
      start.walk = start :: start.children.flatMap Place.walk ∧
      (start.walk.map Place.address).Nodup ∧
      (∀ place, place ∈ start.walk ↔ start.Within place) ∧
      (∀ parent : Place, start ∈ parent.children → ∀ sibling ∈ parent.children,
        sibling ≠ start → sibling ∉ start.walk) ∧
      ∀ ancestor : Place, ancestor.Within start → ancestor ≠ start → ancestor ∉ start.walk := by
  have reached : ∀ place, place ∈ start.walk ↔ start.Within place := by
    intro place
    rw [Place.walk_eq_preorder, Place.mem_preorder_iff_within]
  refine ⟨moves.visits_eq placed home, ?_, Place.walk_eq start, ?_, reached, ?_, ?_⟩
  · rw [Place.walk_eq_preorder, Place.length_preorder]
  · rw [Place.walk_eq_preorder, List.Nodup, List.pairwise_map]
    exact Place.preorder_address_distinct start
  · intro parent own sibling beside different visited
    have level : sibling.depth = start.depth := by
      rw [Place.depth_of_mem_children beside, Place.depth_of_mem_children own]
    exact different (((reached sibling).1 visited).eq_of_depth_le (Nat.le_of_eq level))
  · intro ancestor above different visited
    exact different (((reached ancestor).1 visited).eq_of_depth_le above.depth_le)

def plainLabel (kind : String) : Label :=
  ⟨kind, none, .empty 0, true, false⟩

/-- The last child of the last child of the only child of a first child, and a child that follows. -/
def chainedStatement : Tree :=
  .node (plainLabel "statement")
    [.node (plainLabel "call")
      [.node (plainLabel "member") [.node (plainLabel "object") [], .node (plainLabel "name") []]],
      .node (plainLabel "end") []]

def chainedTree : Tree :=
  .node (plainLabel "program") [chainedStatement, .node (plainLabel "comment") []]

def chainedStart : Place :=
  ⟨chainedStatement, [(chainedTree, 0)]⟩

def chainedComment : Place :=
  ⟨.node (plainLabel "comment") [], [(chainedTree, 1)]⟩

/-- The walk climbs over two levels at once, and ends with a sibling and the root still around it. -/
theorem walk_visits_chainedStart :
    Cursor.moves.place (Cursor.atPlace chainedStart) = chainedStart ∧
      Cursor.moves.origin (Cursor.atPlace chainedStart) = chainedStart ∧
      (∀ count, 6 ≤ count →
        (Cursor.moves.visits count (Cursor.atPlace chainedStart)).map Place.kind =
          ["statement", "call", "member", "object", "name", "end"]) ∧
      chainedComment ∉ chainedStart.walk ∧ Place.root chainedTree ∉ chainedStart.walk := by
  have placed : Cursor.moves.place (Cursor.atPlace chainedStart) = chainedStart := rfl
  have home : Cursor.moves.origin (Cursor.atPlace chainedStart) = chainedStart := rfl
  rcases walk_visits_the_places_below Cursor.moves placed home with
    ⟨visited, size, -, -, -, beside, above⟩
  have own : chainedStart ∈ (Place.root chainedTree).children := List.mem_cons_self
  have other : chainedComment ∈ (Place.root chainedTree).children :=
    List.mem_cons_of_mem _ List.mem_cons_self
  have different : chainedComment ≠ chainedStart := fun same => by
    have kinds : "comment" = "statement" := congrArg Place.kind same
    exact absurd kinds (by decide)
  have lower : Place.root chainedTree ≠ chainedStart := fun same => by
    have kinds : "program" = "statement" := congrArg Place.kind same
    exact absurd kinds (by decide)
  refine ⟨placed, home, ?_, beside _ own _ other different, above _ (.child .here own) lower⟩
  intro count all
  rw [visited count, List.take_of_length_le (by rw [size]; exact all), Place.walk_eq_preorder]
  rfl

end NameLint
