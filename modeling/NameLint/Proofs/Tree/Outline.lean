import Mathlib.Data.List.Forall2
import NameLint.Command.Output
import NameLint.Proofs.Tree.Moves
import NameLint.Proofs.Tree.WellFormed
import NameLint.Tree.Outline

/-!
# Outlines and walks

An outline is printed by a descent that has to come back to where it started, a walk by one that
climbs only as far as it must. Both come upon the nodes in the same order: the outline has one line
for each place of the walk, and leaves its cursor where it was.
-/

namespace NameLint

open NameLint.Text

set_option autoImplicit false

namespace Outline

section Steps

variable {State : Type} (moves : Moves State) (source : String) (fuel depth : Nat)

theorem linesAt_of_leaf {cursor : State} (leaf : moves.firstChild? cursor = none) :
    linesAt moves source (fuel + 1) depth cursor =
      ([line source depth (moves.place cursor)], cursor) := by
  rw [linesAt, leaf]

theorem linesAt_of_child {cursor child : State} (found : moves.firstChild? cursor = some child) :
    linesAt moves source (fuel + 1) depth cursor =
      (line source depth (moves.place cursor) ::
          (linesFrom moves source fuel (depth + 1) child).1,
        (moves.parent? (linesFrom moves source fuel (depth + 1) child).2).getD
          (linesFrom moves source fuel (depth + 1) child).2) := by
  rw [linesAt, found]

theorem linesFrom_of_last {cursor : State}
    (last : moves.nextSibling? (linesAt moves source fuel depth cursor).2 = none) :
    linesFrom moves source (fuel + 1) depth cursor = linesAt moves source fuel depth cursor := by
  rw [linesFrom]
  simp only [last]

theorem linesFrom_of_sibling {cursor sibling : State}
    (found : moves.nextSibling? (linesAt moves source fuel depth cursor).2 = some sibling) :
    linesFrom moves source (fuel + 1) depth cursor =
      ((linesAt moves source fuel depth cursor).1 ++
          (linesFrom moves source fuel depth sibling).1,
        (linesFrom moves source fuel depth sibling).2) := by
  rw [linesFrom]
  simp only [found]

end Steps

section Agreement

open Moves

variable {Left Right : Type} {left : Moves Left} {right : Moves Right} {source : String}

structure PrintAlike (left : Moves Left) (right : Moves Right) (first : List String × Left)
    (second : List String × Right) : Prop where
  lines : first.1 = second.1
  cursors : Agree left right first.2 second.2

theorem agree_climbed {first : Left} {second : Right} (agree : Agree left right first second) :
    Agree left right ((left.parent? first).getD first) ((right.parent? second).getD second) := by
  cases moved : left.parent? first with
  | none =>
      rw [eq_none_of_rel agree.parent? moved]
      exact agree
  | some above =>
      rcases exists_of_rel agree.parent? moved with ⟨above', moved', agreeAbove⟩
      rw [moved']
      exact agreeAbove

theorem printAlike_linesAt_succ {fuel depth : Nat} {first : Left} {second : Right}
    (below : ∀ first second, Agree left right first second →
      PrintAlike left right (linesFrom left source fuel (depth + 1) first)
        (linesFrom right source fuel (depth + 1) second))
    (agree : Agree left right first second) :
    PrintAlike left right (linesAt left source (fuel + 1) depth first)
      (linesAt right source (fuel + 1) depth second) := by
  cases found : left.firstChild? first with
  | none =>
      rw [linesAt_of_leaf left source fuel depth found,
        linesAt_of_leaf right source fuel depth (eq_none_of_rel agree.firstChild? found),
        agree.place]
      exact ⟨rfl, agree⟩
  | some child =>
      rcases exists_of_rel agree.firstChild? found with ⟨child', found', agreeChild⟩
      rw [linesAt_of_child left source fuel depth found,
        linesAt_of_child right source fuel depth found', agree.place]
      have alike := below child child' agreeChild
      exact ⟨by rw [alike.lines], agree_climbed alike.cursors⟩

theorem printAlike_linesFrom_succ {fuel depth : Nat} {first : Left} {second : Right}
    (own : PrintAlike left right (linesAt left source fuel depth first)
      (linesAt right source fuel depth second))
    (beside : ∀ first second, Agree left right first second →
      PrintAlike left right (linesFrom left source fuel depth first)
        (linesFrom right source fuel depth second)) :
    PrintAlike left right (linesFrom left source (fuel + 1) depth first)
      (linesFrom right source (fuel + 1) depth second) := by
  have onward := own.cursors.nextSibling?
  cases found : left.nextSibling? (linesAt left source fuel depth first).2 with
  | none =>
      rw [linesFrom_of_last left source fuel depth found,
        linesFrom_of_last right source fuel depth (eq_none_of_rel onward found)]
      exact own
  | some sibling =>
      rcases exists_of_rel onward found with ⟨sibling', found', agreeSibling⟩
      rw [linesFrom_of_sibling left source fuel depth found,
        linesFrom_of_sibling right source fuel depth found']
      have alike := beside sibling sibling' agreeSibling
      exact ⟨by rw [own.lines, alike.lines], alike.cursors⟩

theorem printAlike (source : String) (fuel : Nat) :
    (∀ depth first second, Agree left right first second →
      PrintAlike left right (linesAt left source fuel depth first)
        (linesAt right source fuel depth second)) ∧
    ∀ depth first second, Agree left right first second →
      PrintAlike left right (linesFrom left source fuel depth first)
        (linesFrom right source fuel depth second) := by
  induction fuel with
  | zero => exact ⟨fun _ _ _ agree => ⟨rfl, agree⟩, fun _ _ _ agree => ⟨rfl, agree⟩⟩
  | succ fuel ih =>
      constructor
      · intro depth first second agree
        exact printAlike_linesAt_succ (ih.2 (depth + 1)) agree
      · intro depth first second agree
        exact printAlike_linesFrom_succ (ih.1 depth first second agree) (ih.2 depth)

end Agreement

section Descent

variable {source : String} {fuel : Nat}

def linesFor (source : String) (places : List Place) : List String :=
  places.map fun place => line source place.depth place

/-- A descent from a place has a line for all below it, and comes back to the place. -/
def TellsAt (source : String) (fuel : Nat) : Prop :=
  ∀ cursor : Cursor, 2 * cursor.tree.size ≤ fuel + 1 →
    linesAt Cursor.moves source fuel cursor.place.depth cursor =
      (linesFor source cursor.place.preorder, cursor)

/-- A descent from a child has a line for all below it and below the children that follow, and ends
on one of them. -/
def TellsFrom (source : String) (fuel : Nat) : Prop :=
  ∀ (parent tree : Tree) (number : Nat) (rest : List Tree) (trail base : List (Tree × Nat)),
    parent.children.drop number = tree :: rest → 2 * Tree.sizes (tree :: rest) ≤ fuel →
    ∃ last : Cursor, last.parent? = some ⟨parent, trail, base⟩ ∧
      linesFrom Cursor.moves source fuel ((trail ++ base).length + 1)
          ⟨tree, (parent, number) :: trail, base⟩ =
        (linesFor source (Place.preorderOf parent (trail ++ base) number (tree :: rest)), last)

theorem tellsAt_succ (below : TellsFrom source fuel) : TellsAt source (fuel + 1) := by
  rintro ⟨⟨label, children⟩, trail, base⟩ enough
  cases children with
  | nil =>
      rw [linesAt_of_leaf Cursor.moves source fuel _ rfl]
      rfl
  | cons tree rest =>
      rw [Tree.size] at enough
      rcases below (.node label (tree :: rest)) tree 0 rest trail base rfl (by omega) with
        ⟨last, up, printed⟩
      have child : Cursor.moves.firstChild? ⟨.node label (tree :: rest), trail, base⟩ =
          some ⟨tree, (.node label (tree :: rest), 0) :: trail, base⟩ := rfl
      have level : (Cursor.place ⟨.node label (tree :: rest), trail, base⟩).depth =
          (trail ++ base).length := rfl
      rw [linesAt_of_child Cursor.moves source fuel _ child, level, printed, Cursor.moves_parent?,
        up]
      rfl

theorem nextSibling?_of_drop {parent tree : Tree} {number : Nat} {rest : List Tree}
    (trail base : List (Tree × Nat)) (shape : parent.children.drop number = tree :: rest) :
    Cursor.moves.nextSibling? ⟨tree, (parent, number) :: trail, base⟩ =
      rest.head?.map fun next => ⟨next, (parent, number + 1) :: trail, base⟩ := by
  have later : parent.children[number + 1]? = rest.head? := by
    rw [← List.head?_drop, ← List.drop_drop, shape, List.drop_one, List.tail_cons]
  rw [← later]
  rfl

theorem tellsFrom_succ (own : TellsAt source fuel) (beside : TellsFrom source fuel) :
    TellsFrom source (fuel + 1) := by
  intro parent tree number rest trail base shape enough
  rw [Tree.sizes] at enough
  have printed : linesAt Cursor.moves source fuel ((trail ++ base).length + 1)
      ⟨tree, (parent, number) :: trail, base⟩ =
      (linesFor source (Place.preorderFrom ((parent, number) :: (trail ++ base)) tree),
        ⟨tree, (parent, number) :: trail, base⟩) :=
    own ⟨tree, (parent, number) :: trail, base⟩ (by simp only; omega)
  have onward := nextSibling?_of_drop trail base shape
  cases rest with
  | nil =>
      refine ⟨⟨tree, (parent, number) :: trail, base⟩, rfl, ?_⟩
      rw [linesFrom_of_last Cursor.moves source fuel _ (by rw [printed]; exact onward), printed,
        Place.preorderOf, Place.preorderOf, List.append_nil]
  | cons next rest =>
      -- the first descent came back to its child, so the sibling is the one behind it
      have remaining : parent.children.drop (number + 1) = next :: rest := by
        rw [← List.drop_drop, shape, List.drop_one, List.tail_cons]
      have positive := Cursor.size_eq tree
      rcases beside parent next (number + 1) rest trail base remaining (by omega) with
        ⟨last, up, more⟩
      refine ⟨last, up, ?_⟩
      rw [linesFrom_of_sibling Cursor.moves source fuel _ (by rw [printed]; exact onward), printed,
        more]
      simp only [linesFor, Place.preorderOf, List.map_append]

-- Each of the two calls the other with one unit less, so neither is proved without the other.
theorem tells (source : String) (fuel : Nat) : TellsAt source fuel ∧ TellsFrom source fuel := by
  induction fuel with
  | zero =>
      constructor
      · intro cursor enough
        rw [Cursor.size_eq] at enough
        omega
      · intro parent tree number rest trail base _ enough
        rw [Tree.sizes, Cursor.size_eq] at enough
        omega
  | succ fuel ih => exact ⟨tellsAt_succ ih.2, tellsFrom_succ ih.1 ih.2⟩

end Descent

/-- From any cursor on the root, the lines are those of the walk, and the cursor is on the root
again. -/
theorem print_eq {State : Type} (moves : Moves State) (source : String) {tree : Tree}
    {cursor : State} (placed : moves.place cursor = Place.root tree)
    (home : moves.origin cursor = Place.root tree) :
    (print moves source cursor).1 = linesFor source (Place.root tree).walk ∧
      moves.place (print moves source cursor).2 = Place.root tree := by
  have agree : Moves.Agree moves Cursor.moves cursor (Cursor.atPlace (Place.root tree)) :=
    ⟨placed, home⟩
  have told : linesAt Cursor.moves source (2 * tree.size) 0 (Cursor.atPlace (Place.root tree)) =
      (linesFor source (Place.root tree).preorder, Cursor.atPlace (Place.root tree)) :=
    (tells source (2 * tree.size)).1 (Cursor.atPlace (Place.root tree)) (Nat.le_succ _)
  have alike := (printAlike source (2 * tree.size)).1 0 cursor _ agree
  rw [told] at alike
  have size : (moves.place cursor).tree.size = tree.size := by
    rw [placed]
    rfl
  rw [print, size, Place.walk_eq_preorder]
  exact ⟨alike.lines, alike.cursors.place⟩

section Lines

theorem newline_not_mem_toString (number : Nat) : '\n' ∉ (toString number).toList := by
  intro member
  rw [Nat.toString_eq_repr, Nat.toList_repr] at member
  have digit := Nat.isDigit_of_mem_toDigits (by omega) (by omega) member
  exact absurd digit (by decide)

theorem newline_not_mem_point (source : String) (offset : Nat) :
    '\n' ∉ (point source offset).toList := by
  simp only [point, String.toList_append, List.mem_append, newline_not_mem_toString, false_or,
    or_false]
  decide

theorem newline_not_mem_preview (text : String) : '\n' ∉ (preview text).toList := by
  rw [preview, String.toList_ofList, List.mem_map]
  rintro ⟨c, -, shown⟩
  split at shown
  · exact absurd shown (by decide)
  · next other => exact other shown

/-- What the outline tells of a place: how deep it is, its field and kind and where it lies, and
the start of its text in quotes if it has no children. -/
structure Describes (source : String) (place : Place) (line : String) : Prop where
  form : ∃ shown, line = repeated ' ' (2 * place.depth) ++ fieldPart place.tree.label.field ++
      place.kind ++ " [" ++ point source place.span.start ++ "-" ++
        point source place.span.stop ++ "]" ++ shown ∧
    (place.tree.children = [] →
      ∃ start : String, '\n' ∉ start.toList ∧ shown = " \"" ++ start ++ "\"") ∧
    (place.tree.children ≠ [] → shown = "")
  single : '\n' ∉ line.toList

theorem previewPart_of_leaf (source : String) {place : Place} (leaf : place.tree.children = []) :
    ∃ start : String, '\n' ∉ start.toList ∧ previewPart source place = " \"" ++ start ++ "\"" := by
  rw [previewPart, leaf]
  cases textIn? source place with
  | some text => exact ⟨preview text, newline_not_mem_preview text, rfl⟩
  | none => exact ⟨"", by decide, rfl⟩

/-- A leaf of a parse of the source shows the start of its own text. -/
theorem previewPart_of_wellFormed {source : String} {tree : Tree} (formed : WellFormed source tree)
    {place : Place} (within : place ∈ (Place.root tree).preorder)
    (leaf : place.tree.children = []) : ∃ text, place.text source = .ok text ∧
      previewPart source place = " \"" ++ preview text ++ "\"" := by
  obtain ⟨text, read⟩ := formed.text_ok within
  have inside : ¬Offset.endOf source < place.span.stop :=
    Nat.not_lt.2 (formed.boundary place within).2.le_endOf
  refine ⟨text, read, ?_⟩
  rw [previewPart, leaf, textIn?, if_neg inside, read]
  rfl

theorem previewPart_of_ne_nil (source : String) {place : Place}
    (inner : place.tree.children ≠ []) : previewPart source place = "" := by
  rw [previewPart, if_neg (by simpa using inner)]

theorem newline_not_mem_previewPart (source : String) (place : Place) :
    '\n' ∉ (previewPart source place).toList := by
  by_cases leaf : place.tree.children = []
  · rcases previewPart_of_leaf source leaf with ⟨start, single, shown⟩
    rw [shown]
    simp [single]
  · rw [previewPart_of_ne_nil source leaf]
    decide

def IsPlain (label : Label) : Prop :=
  '\n' ∉ label.kind.toList ∧ ∀ name ∈ label.field, '\n' ∉ name.toList

instance (label : Label) : Decidable (IsPlain label) :=
  inferInstanceAs (Decidable ('\n' ∉ label.kind.toList ∧ ∀ name ∈ label.field, '\n' ∉ name.toList))

theorem newline_not_mem_fieldPart {label : Label} (plain : IsPlain label) :
    '\n' ∉ (fieldPart label.field).toList := by
  cases named : label.field with
  | none => decide
  | some name =>
      have single := plain.2 name named
      simp [fieldPart, single]

theorem describes_line (source : String) {place : Place} (plain : IsPlain place.tree.label) :
    Describes source place (line source place.depth place) where
  form := ⟨previewPart source place, rfl, previewPart_of_leaf source,
    previewPart_of_ne_nil source⟩
  single := by
    have kind : '\n' ∉ place.kind.toList := plain.1
    have field := newline_not_mem_fieldPart plain
    have shown := newline_not_mem_previewPart source place
    have start := newline_not_mem_point source place.span.start
    have stop := newline_not_mem_point source place.span.stop
    simp [line, indentation, repeated, kind, field, shown, start, stop]

end Lines

/-- Lines without line feeds are found again in the text that joins them. -/
theorem splitOn_joinLines {lines : List String} (single : ∀ line ∈ lines, '\n' ∉ line.toList) :
    (Command.joinLines lines).toList.splitOn '\n' = lines.map String.toList ++ [[]] := by
  rw [Command.joinLines, String.toList_join, List.flatMap_map]
  induction lines with
  | nil => rfl
  | cons line rest ih =>
      rcases List.forall_mem_cons.1 single with ⟨own, others⟩
      rw [List.flatMap_cons, String.toList_append, List.append_assoc, List.map_cons,
        List.cons_append, ← ih others]
      exact List.splitOn_append_cons_self_of_not_mem own _

end Outline

/-- The outline of a tree has one line for each place of its walk, in the order of the walk, and
printing it leaves the cursor on the root. A line is indented by the depth of its place and has a
quoted start of text, without a line feed, just for a place without children. -/
theorem print_follows_the_walk {State : Type} (moves : Moves State) (source : String) {tree : Tree}
    {cursor : State} (placed : moves.place cursor = Place.root tree)
    (home : moves.origin cursor = Place.root tree)
    (plain : ∀ label ∈ tree.labels, Outline.IsPlain label) :
    ∃ lines last, Outline.print moves source cursor = (lines, last) ∧
      moves.place last = moves.place cursor ∧
      (Command.joinLines lines).toList.splitOn '\n' = lines.map String.toList ++ [[]] ∧
      lines.length = tree.size ∧
      List.Forall₂ (Outline.Describes source) (Place.root tree).walk lines := by
  rcases Outline.print_eq moves source placed home with ⟨told, back⟩
  have described : ∀ place ∈ (Place.root tree).walk,
      Outline.Describes source place (Outline.line source place.depth place) := by
    intro place visited
    rw [Place.walk_eq_preorder] at visited
    exact Outline.describes_line source (plain _ (Place.label_mem_labels visited))
  refine ⟨(Outline.print moves source cursor).1, (Outline.print moves source cursor).2, rfl,
    back.trans placed.symm, ?_, ?_, ?_⟩
  · apply Outline.splitOn_joinLines
    intro line printed
    rw [told] at printed
    rcases List.mem_map.1 printed with ⟨place, visited, rfl⟩
    exact (described place visited).single
  · rw [told, Outline.linesFor, List.length_map, Place.walk_eq_preorder, Place.length_preorder]
    rfl
  · rw [told, Outline.linesFor, List.forall₂_map_right_iff, List.forall₂_same]
    exact described

/-- A leaf with a line feed in its text, beside one in a field. -/
def brokenCall : Tree :=
  .node ⟨"program", none, ⟨0, 6, by decide⟩, true, false⟩
    [.node ⟨"call", some "value", ⟨0, 6, by decide⟩, true, false⟩
      [.node ⟨"name", some "function", ⟨0, 1, by decide⟩, true, false⟩ [],
        .node ⟨"text", none, ⟨1, 6, by decide⟩, true, false⟩ []]]

/-- The line feed in the text shows as an arrow, and counts as one where it lies. -/
theorem print_brokenCall :
    Cursor.moves.place (Cursor.atPlace (Place.root brokenCall)) = Place.root brokenCall ∧
      Cursor.moves.origin (Cursor.atPlace (Place.root brokenCall)) = Place.root brokenCall ∧
      (∀ label ∈ brokenCall.labels, Outline.IsPlain label) ∧
      ∃ lines last,
        Outline.print Cursor.moves "f(\né)" (Cursor.atPlace (Place.root brokenCall)) =
          (lines, last) ∧
        lines = ["program [1:0-2:3]", "  value: call [1:0-2:3]", "    function: name [1:0-1:1] \"f\"",
          "    text [1:1-2:3] \"(↵é)\""] ∧
        (Command.joinLines lines).toList.splitOn '\n' = lines.map String.toList ++ [[]] ∧
        Cursor.moves.place last = Place.root brokenCall ∧
        List.Forall₂ (Outline.Describes "f(\né)") (Place.root brokenCall).walk lines := by
  have placed : Cursor.moves.place (Cursor.atPlace (Place.root brokenCall)) =
    Place.root brokenCall := rfl
  have home : Cursor.moves.origin (Cursor.atPlace (Place.root brokenCall)) =
    Place.root brokenCall := rfl
  have plain : ∀ label ∈ brokenCall.labels, Outline.IsPlain label := by decide
  have shown : (Outline.print Cursor.moves "f(\né)" (Cursor.atPlace (Place.root brokenCall))).1 =
      ["program [1:0-2:3]", "  value: call [1:0-2:3]", "    function: name [1:0-1:1] \"f\"",
        "    text [1:1-2:3] \"(↵é)\""] := by
    decide
  rcases print_follows_the_walk Cursor.moves "f(\né)" placed home plain with
    ⟨lines, last, printed, back, split, -, all⟩
  rw [printed] at shown
  exact ⟨placed, home, plain, lines, last, printed, shown, split, back, all⟩

end NameLint
