import NameLint.Proofs.Edit.Shift
import NameLint.Proofs.Lint.Renaming
import NameLint.Proofs.Naming.Construct
import NameLint.Proofs.Naming.Moved

/-!
# Checking what was fixed

After some of the reports have been fixed, the tree of the new text is the old one with its offsets
moved by the edits. A fixed name is in camel case and so is reported no more. The text of any other
name is as it was; only an import can then judge it differently, by a bound name that was fixed, and
a fixed name is none that is reported.
-/

namespace NameLint.Naming

open NameLint.Text

set_option autoImplicit false

def movedSpan (edits : List Edit) (span : Span) : Span :=
  ⟨shift edits span.start, max (shift edits span.start) (shift edits span.stop),
    Nat.le_max_left _ _⟩

def movedTree (edits : List Edit) (tree : Tree) : Tree :=
  tree.mapSpans (movedSpan edits)

def movedPlace (edits : List Edit) (place : Place) : Place :=
  place.mapSpans (movedSpan edits)

/-- No name lies inside a name or an alias of an import specifier. -/
def ImportsApart (tree : Tree) : Prop :=
  ∀ parent ∈ (Place.root tree).preorder, parent.kind = "import_specifier" →
    ∀ child ∈ parent.children, child.tree.label.field ∈ [some "name", some "alias"] →
      ∀ below ∈ child.descendants, isName below = false

instance (tree : Tree) : Decidable (ImportsApart tree) :=
  inferInstanceAs (Decidable (∀ parent ∈ (Place.root tree).preorder,
    parent.kind = "import_specifier" → ∀ child ∈ parent.children,
      child.tree.label.field ∈ [some "name", some "alias"] →
        ∀ below ∈ child.descendants, isName below = false))

def ReportsAreLeaves (mode : PropertiesMode) (source : String) (tree : Tree) : Prop :=
  ∀ place ∈ (Place.root tree).preorder, isName place = true →
    (verdict mode source place).isSome = true → place.tree.children = []

instance (mode : PropertiesMode) (source : String) (tree : Tree) :
    Decidable (ReportsAreLeaves mode source tree) :=
  inferInstanceAs (Decidable (∀ place ∈ (Place.root tree).preorder, isName place = true →
    (verdict mode source place).isSome = true → place.tree.children = []))

/-- The report of the name at the place is among the chosen ones. -/
def IsChosen (mode : PropertiesMode) (source : String) (chosen : List Diagnostic)
    (place : Place) : Prop :=
  isName place = true ∧ ∃ diagnostic ∈ chosen, classify mode source place = .ok (some diagnostic)

section Chosen

variable {source : String} {tree : Tree} {mode : PropertiesMode} {chosen : List Diagnostic}

theorem descendants_of_isChosen (leaves : ReportsAreLeaves mode source tree) {place : Place}
    (within : place ∈ (Place.root tree).preorder) (picked : IsChosen mode source chosen place) :
    place.descendants = [] := by
  obtain ⟨named, diagnostic, -, classified⟩ := picked
  have none := leaves place within named (by rw [verdict_eq_some_iff.2 classified]; rfl)
  rw [← Place.map_tree_children, List.map_eq_nil_iff] at none
  rw [Place.descendants, none, List.flatMap_nil]

variable (sublist : chosen.Sublist (reports mode source tree))

include sublist

theorem exists_isChosen_of_mem_editsOf {edit : Edit} (member : edit ∈ editsOf chosen) :
    ∃ place ∈ (Place.root tree).preorder, IsChosen mode source chosen place ∧
      edit.span = place.span := by
  obtain ⟨diagnostic, present, span, -⟩ := exists_of_mem_editsOf sublist member
  obtain ⟨place, within, named, classified⟩ := mem_reports_iff.1 (sublist.subset present)
  obtain ⟨_, _, -, -, -, -, renames⟩ := exists_of_classify classified
  exact ⟨place, within, ⟨named, diagnostic, present, classified⟩, span.trans renames.span_eq⟩

variable (formed : WellFormed source tree) (leaves : ReportsAreLeaves mode source tree)

include formed leaves

theorem clear_of_hasEnd {offset : Nat} (ends : HasEnd tree offset) :
    Clear (editsOf chosen) offset := by
  intro edit member
  obtain ⟨place, within, picked, span⟩ := exists_isChosen_of_mem_editsOf sublist member
  obtain ⟨other, otherIn, either⟩ := ends
  have size := other.span.start_le_stop
  rw [span]
  rcases formed.span_cases within otherIn with rfl | below | above | before | behind
  · omega
  · rw [descendants_of_isChosen leaves within picked] at below
    exact absurd below List.not_mem_nil
  · have bounds := formed.span_of_mem_preorder otherIn (Place.mem_preorder_iff.2 (.inr above))
    omega
  · omega
  · omega

section Code

variable {code : String} (spliced : Spliced 0 source.toList (editsOf chosen) code.toList)

include spliced

theorem movedSpan_ends {place : Place} (within : place ∈ (Place.root tree).preorder) :
    (movedSpan (editsOf chosen) place.span).start = shift (editsOf chosen) place.span.start ∧
      (movedSpan (editsOf chosen) place.span).stop = shift (editsOf chosen) place.span.stop := by
  have ordered := shift_le_shift spliced (fun edit => editsOf_filled sublist)
    (formed.boundary place within).1 (formed.boundary place within).2 place.span.start_le_stop
    (clear_of_hasEnd sublist formed leaves (hasEnd_start within))
    (clear_of_hasEnd sublist formed leaves (hasEnd_stop within))
  exact ⟨rfl, Nat.max_eq_right ordered⟩

theorem wellFormed_movedTree : WellFormed code (movedTree (editsOf chosen) tree) := by
  have filled : ∀ edit ∈ editsOf chosen, edit.span.start < edit.span.stop :=
    fun edit => editsOf_filled sublist
  have bounded {offset : Nat} (ends : HasEnd tree offset) : IsBoundary source offset := by
    obtain ⟨place, within, rfl | rfl⟩ := ends
    · exact (formed.boundary place within).1
    · exact (formed.boundary place within).2
  apply formed.mapSpans (fun place within => movedSpan_ends sublist formed leaves spliced within)
  · intro offset ends
    exact isBoundary_shift spliced filled (bounded ends)
      (clear_of_hasEnd sublist formed leaves ends)
  · intro left right leftEnds rightEnds ordered
    exact shift_le_shift spliced filled (bounded leftEnds) (bounded rightEnds) ordered
      (clear_of_hasEnd sublist formed leaves leftEnds)
      (clear_of_hasEnd sublist formed leaves rightEnds)

/-- The text of a node after the edits is its text before, with the edits inside it made. -/
theorem text_movedPlace {place : Place} (within : place ∈ (Place.root tree).preorder) :
    ∃ old new : String, place.text source = .ok old ∧
      (movedPlace (editsOf chosen) place).text code = .ok new ∧
      Spliced place.span.start old.toList
        (((editsOf chosen).filter (·.span.stop ≤ place.span.stop)).filter
          (place.span.start < ·.span.stop)) new.toList := by
  obtain ⟨old, new, before, after, between⟩ := cut_shift spliced
    (fun edit => editsOf_filled sublist) (formed.boundary place within).1
    (formed.boundary place within).2 place.span.start_le_stop
    (clear_of_hasEnd sublist formed leaves (hasEnd_start within))
    (clear_of_hasEnd sublist formed leaves (hasEnd_stop within))
  obtain ⟨start, stop⟩ := movedSpan_ends sublist formed leaves spliced within
  refine ⟨old, new, before, ?_, between⟩
  rw [movedPlace, Place.text, Place.span_mapSpans, Span.text, start, stop]
  exact after

theorem text_of_untouched {place : Place} (within : place ∈ (Place.root tree).preorder)
    (untouched : ∀ other ∈ place.preorder, ¬ IsChosen mode source chosen other) :
    (movedPlace (editsOf chosen) place).text code = place.text source := by
  obtain ⟨old, new, before, after, between⟩ :=
    text_movedPlace sublist formed leaves spliced within
  rw [before, after]
  have nothing : ((editsOf chosen).filter (·.span.stop ≤ place.span.stop)).filter
      (place.span.start < ·.span.stop) = [] := by
    rw [List.filter_filter, List.filter_eq_nil_iff]
    intro edit member inside
    have size := editsOf_filled sublist member
    obtain ⟨other, otherIn, picked, span⟩ := exists_isChosen_of_mem_editsOf sublist member
    rw [Bool.and_eq_true, decide_eq_true_eq, decide_eq_true_eq, span] at inside
    rw [span] at size
    rcases formed.span_cases otherIn within with rfl | above | below | ahead | behind
    · exact untouched _ (Place.mem_preorder_self _) picked
    · rw [descendants_of_isChosen leaves otherIn picked] at above
      exact absurd above List.not_mem_nil
    · exact untouched other (Place.mem_preorder_iff.2 (.inr below)) picked
    · omega
    · omega
  rw [nothing] at between
  rw [String.toList_inj.1 between.eq_of_nil]

theorem text_of_isChosen {place : Place} (within : place ∈ (Place.root tree).preorder)
    (picked : IsChosen mode source chosen place) {name : String}
    (text : (movedPlace (editsOf chosen) place).text code = .ok name) :
    isUnderscored (splitMarkers name).core = false := by
  obtain ⟨old, new, before, after, between⟩ :=
    text_movedPlace sublist formed leaves spliced within
  obtain ⟨-, diagnostic, present, classified⟩ := picked
  obtain ⟨spelt, _, own, -, -, -, renames⟩ := exists_of_classify classified
  obtain ⟨edit, fix, span, content⟩ := renames.fix_eq
  have asked : edit ∈ editsOf chosen := List.mem_flatMap.2
    ⟨Fix.ofEdit .optIn edit, List.mem_filterMap.2 ⟨diagnostic, present, fix⟩,
      List.mem_singleton.2 rfl⟩
  have size := editsOf_filled sublist asked
  have inside : edit ∈ ((editsOf chosen).filter (·.span.stop ≤ place.span.stop)).filter
      (place.span.start < ·.span.stop) := by
    rw [List.mem_filter, List.mem_filter, decide_eq_true_eq, decide_eq_true_eq]
    rw [span] at size ⊢
    exact ⟨⟨asked, Nat.le_refl _⟩, size⟩
  obtain ⟨_, _, -, -, stop⟩ := cut_eq_ok_iff.1 before
  have written := between.eq_inserted
    (fun other member => editsOf_filled sublist
      (List.mem_filter.1 (List.mem_filter.1 member).1).1)
    inside (by rw [span]) (by rw [span, stop])
  rw [after, Except.ok.injEq] at text
  rw [← text, String.toList_inj.1 written, Edit.inserted, content]
  exact not_isUnderscored_core_camelCase spelt

variable (apart : NamesApart tree) (imports : ImportsApart tree)

include apart imports

/-- A name that is reported after the edits was reported before, and not chosen. -/
theorem reported_before {place : Place} (within : place ∈ (Place.root tree).preorder)
    (named : isName place = true) {diagnostic : Diagnostic}
    (classified : classify mode code (movedPlace (editsOf chosen) place) = .ok (some diagnostic)) :
    ∃ old ∈ reports mode source tree, old ∉ chosen ∧
      classify mode source place = .ok (some old) := by
  obtain ⟨name, after, text, later, underscored, asked, -⟩ := exists_of_classify classified
  -- a fixed name is in camel case, so it is not spelt like the name that is reported now
  have unfixed {other : Place} (otherIn : other ∈ (Place.root tree).preorder)
      (same : (movedPlace (editsOf chosen) other).text code = .ok name) :
      ¬ IsChosen mode source chosen other := by
    intro picked
    have clean := text_of_isChosen sublist formed leaves spliced otherIn picked same
    rw [underscored] at clean
    exact absurd clean (by decide)
  have own : (movedPlace (editsOf chosen) place).text code = place.text source := by
    apply text_of_untouched sublist formed leaves spliced within
    intro other inside picked
    rcases Place.mem_preorder_iff.1 inside with rfl | below
    · exact unfixed within text picked
    · have free := apart place within named other below
      rw [picked.1] at free
      exact absurd free (by decide)
  obtain ⟨held, before⟩ := roles_ok formed within
  have askedBefore : held.any (mode.judges name) := by
    apply asked_of_mapSpans own before later _ asked
    intro parent above bound specifier found same
    obtain ⟨parentIn, -⟩ := Place.parent_mem within above
    have boundIn := Place.mem_preorder_of_mem_children parentIn (boundChild_mem found)
    rw [← same]
    symm
    apply text_of_untouched sublist formed leaves spliced boundIn
    intro other inside picked
    rcases Place.mem_preorder_iff.1 inside with rfl | below
    · exact unfixed boundIn same picked
    · have kind : parent.kind = "import_specifier" :=
        List.mem_singleton.1 ((ofKind_eq_iff (by decide)).1 specifier)
      have free := imports parent parentIn kind bound (boundChild_mem found)
        (boundChild_field found) other below
      rw [picked.1] at free
      exact absurd free (by decide)
  obtain ⟨old, answer, -⟩ := classify_of_asked (own.symm.trans text) before underscored askedBefore
  refine ⟨old, mem_reports_iff.2 ⟨place, within, named, answer⟩, ?_, answer⟩
  intro member
  exact unfixed within text ⟨named, old, member, answer⟩

end Code

end Chosen

/-- Fixing reports brings up no new ones: what is reported of the fixed text is a name that was
reported before and left alone. So when all reports are fixed, none is left. -/
theorem check_movedTree_of_applyFixes {source : String} {tree : Tree}
    (formed : WellFormed source tree) (apart : NamesApart tree) (imports : ImportsApart tree)
    (mode : PropertiesMode) (leaves : ReportsAreLeaves mode source tree) :
    ∃ found, (camelCaseLinter mode).check source tree = .ok found ∧
      ∀ chosen : List Diagnostic, chosen.Sublist found → ∃ code left,
        applyFixes source chosen .optIn = .ok ⟨code, chosen.length⟩ ∧
        (∀ place ∈ (Place.root tree).preorder,
          (movedPlace (editsOf chosen) place).span.start =
              shift (editsOf chosen) place.span.start ∧
            (movedPlace (editsOf chosen) place).span.stop =
              shift (editsOf chosen) place.span.stop) ∧
        WellFormed code (movedTree (editsOf chosen) tree) ∧
        (camelCaseLinter mode).check code (movedTree (editsOf chosen) tree) = .ok left ∧
        (∀ diagnostic ∈ left, ∃ place ∈ (Place.root tree).preorder, ∃ old ∈ found,
          classify mode code (movedPlace (editsOf chosen) place) = .ok (some diagnostic) ∧
            classify mode source place = .ok (some old) ∧ old ∉ chosen) ∧
        (chosen = found → left = []) := by
  refine ⟨_, check_eq formed apart mode, ?_⟩
  intro chosen sublist
  obtain ⟨code, applied, spliced⟩ := applyFixes_chosen sublist formed apart
  have formed' := wellFormed_movedTree sublist formed leaves spliced
  have origin : ∀ diagnostic ∈ reports mode code (movedTree (editsOf chosen) tree),
      ∃ place ∈ (Place.root tree).preorder, ∃ old ∈ reports mode source tree,
        classify mode code (movedPlace (editsOf chosen) place) = .ok (some diagnostic) ∧
          classify mode source place = .ok (some old) ∧ old ∉ chosen := by
    intro diagnostic member
    obtain ⟨moved, movedIn, named, classified⟩ := mem_reports_iff.1 member
    obtain ⟨place, within, rfl⟩ := (Place.mem_preorder_mapSpans _).1 movedIn
    rw [isName_mapSpans] at named
    obtain ⟨old, present, left, before⟩ :=
      reported_before sublist formed leaves spliced apart imports within named classified
    exact ⟨place, within, old, present, classified, before, left⟩
  refine ⟨code, _, applied, ?_, formed', check_eq formed' (apart.mapSpans _) mode, origin, ?_⟩
  · intro place within
    rw [movedPlace, Place.span_mapSpans]
    exact movedSpan_ends sublist formed leaves spliced within
  · intro all
    apply List.eq_nil_iff_forall_not_mem.2
    intro diagnostic member
    obtain ⟨place, -, old, present, -, -, left⟩ := origin diagnostic member
    rw [all] at left
    exact left present

theorem check_movedTree_importTree :
    WellFormed importSource importTree ∧ NamesApart importTree ∧ ImportsApart importTree ∧
      ReportsAreLeaves .always importSource importTree ∧
      ∃ found code, (camelCaseLinter .always).check importSource importTree = .ok found ∧
        found.length = 1 ∧ applyFixes importSource found .optIn = .ok ⟨code, 1⟩ ∧
        (camelCaseLinter .always).check code (movedTree (editsOf found) importTree) = .ok [] := by
  have formed : WellFormed importSource importTree := by decide
  have apart : NamesApart importTree := by decide
  have imports : ImportsApart importTree := by decide
  have leaves : ReportsAreLeaves .always importSource importTree := by decide
  refine ⟨formed, apart, imports, leaves, ?_⟩
  obtain ⟨found, checked, fixing⟩ :=
    check_movedTree_of_applyFixes formed apart imports .always leaves
  obtain ⟨code, left, applied, -, -, rechecked, -, clean⟩ := fixing found (List.Sublist.refl found)
  have one : found.length = 1 := by
    rw [check_eq formed apart, Except.ok.injEq] at checked
    rw [← checked]
    decide
  rw [one] at applied
  rw [clean rfl] at rechecked
  exact ⟨found, code, checked, one, applied, rechecked⟩

end NameLint.Naming
