import NameLint.Proofs.Text.Cut
import NameLint.Proofs.Tree.Preorder

/-!
# Well-formed trees

What a parser promises about the spans of the tree it makes of a source: a child lies inside its
parent, siblings do not overlap and come in order, and all ends are between characters. Missing
nodes are empty, so a span need not hold a character.
-/

namespace NameLint

open NameLint.Text

set_option autoImplicit false

structure WellFormed (source : String) (tree : Tree) : Prop where
  inside : ∀ place ∈ (Place.root tree).preorder, ∀ child ∈ place.children,
    place.span.start ≤ child.span.start ∧ child.span.stop ≤ place.span.stop
  ordered : ∀ place ∈ (Place.root tree).preorder,
    place.children.Pairwise fun left right => left.span.stop ≤ right.span.start
  boundary : ∀ place ∈ (Place.root tree).preorder,
    IsBoundary source place.span.start ∧ IsBoundary source place.span.stop

instance (source : String) (tree : Tree) : Decidable (WellFormed source tree) :=
  decidable_of_iff
    ((∀ place ∈ (Place.root tree).preorder, ∀ child ∈ place.children,
        place.span.start ≤ child.span.start ∧ child.span.stop ≤ place.span.stop) ∧
      (∀ place ∈ (Place.root tree).preorder,
        place.children.Pairwise fun left right => left.span.stop ≤ right.span.start) ∧
      ∀ place ∈ (Place.root tree).preorder,
        IsBoundary source place.span.start ∧ IsBoundary source place.span.stop)
    ⟨fun ⟨inside, ordered, boundary⟩ => ⟨inside, ordered, boundary⟩,
      fun formed => ⟨formed.inside, formed.ordered, formed.boundary⟩⟩

def spanAt (start size : Nat) : Span :=
  ⟨start, start + size, Nat.le_add_right start size⟩

/-- One name imported under another, which is longer in camel case; a missing name behind. -/
def importSource : String := "import {a_é as b_ΐ} from 'm'"

def importTree : Tree :=
  let label (kind : String) (field : Option String) (span : Span) : Label :=
    ⟨kind, field, span, true, span.isEmpty⟩
  .node (label "program" none ⟨0, 30, by decide⟩)
    [.node (label "import_statement" none ⟨0, 30, by decide⟩)
      [.node (label "import_clause" none ⟨7, 21, by decide⟩)
        [.node (label "named_imports" none ⟨7, 21, by decide⟩)
          [.node (label "import_specifier" none ⟨8, 20, by decide⟩)
            [.node (label "identifier" (some "name") ⟨8, 12, by decide⟩) [],
              .node (label "identifier" (some "alias") ⟨16, 20, by decide⟩) []]]],
        .node (label "string" (some "source") ⟨27, 30, by decide⟩) []],
      .node (label "identifier" none ⟨30, 30, by decide⟩) []]

namespace WellFormed

variable {source : String} {tree : Tree} (formed : WellFormed source tree)

include formed

theorem text_ok {place : Place} (within : place ∈ (Place.root tree).preorder) :
    ∃ text, place.text source = .ok text :=
  Span.text_ok (formed.boundary place within).1 (formed.boundary place within).2

theorem span_of_mem_preorder {place below : Place} (within : place ∈ (Place.root tree).preorder)
    (member : below ∈ place.preorder) :
    place.span.start ≤ below.span.start ∧ below.span.stop ≤ place.span.stop := by
  induction place using Place.induction with
  | step place ih =>
      rcases Place.mem_preorder_iff.1 member with rfl | deeper
      · exact ⟨Nat.le_refl _, Nat.le_refl _⟩
      · obtain ⟨child, own, held⟩ := Place.mem_descendants_iff.1 deeper
        have outer := formed.inside place within child own
        have inner := ih child own (Place.mem_preorder_of_mem_children within own) held
        omega

/-- Of two places in pre-order the second lies below the first or behind it. -/
theorem preorder_spans : (Place.root tree).preorder.Pairwise fun first second =>
    second ∈ first.descendants ∨ first.span.stop ≤ second.span.start := by
  apply Place.preorder_pairwise
  · intro place _ below member
    exact .inl member
  · intro place within
    apply List.Pairwise.imp_of_mem _ (formed.ordered place within)
    intro left right leftMember rightMember apart first firstInside second secondInside
    have leftWithin := Place.mem_preorder_of_mem_children within leftMember
    have rightWithin := Place.mem_preorder_of_mem_children within rightMember
    have before := (formed.span_of_mem_preorder leftWithin firstInside).2
    have behind := (formed.span_of_mem_preorder rightWithin secondInside).1
    exact .inr (by omega)

theorem span_cases {first second : Place} (firstIn : first ∈ (Place.root tree).preorder)
    (secondIn : second ∈ (Place.root tree).preorder) :
    first = second ∨ second ∈ first.descendants ∨ first ∈ second.descendants ∨
      first.span.stop ≤ second.span.start ∨ second.span.stop ≤ first.span.start := by
  rcases eq_or_of_pairwise formed.preorder_spans firstIn secondIn with
    same | (below | before) | (below | before)
  · exact .inl same
  · exact .inr (.inl below)
  · exact .inr (.inr (.inr (.inl before)))
  · exact .inr (.inr (.inl below))
  · exact .inr (.inr (.inr (.inr before)))

end WellFormed

end NameLint
