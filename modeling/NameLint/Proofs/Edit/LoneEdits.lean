import Mathlib.Data.List.Dedup
import NameLint.Proofs.Edit.Apply
import NameLint.Proofs.Text.Span

/-!
# Fixes of one edit

Fixes of one edit each are tried in the order in which their edits start, so an edit is skipped only
for one that starts before it, or where it starts, and ends behind its start. What is made is then a
maximal choice of edits that do not overlap. The order of the diagnostics decides nothing but the
order of edits that start at the same offset.
-/

namespace NameLint

open NameLint.Text

set_option autoImplicit false

def askedEdits (diagnostics : List Diagnostic) (required : Applicability) : List Edit :=
  (askedFixes diagnostics required).flatMap (·.edits)

theorem mem_askedFixes {diagnostics : List Diagnostic} {required : Applicability} {fix : Fix} :
    fix ∈ askedFixes diagnostics required ↔ IsApplicable diagnostics required fix := by
  rw [← mem_applicableFixes, applicableFixes_eq, List.mem_mergeSort]

theorem mem_askedEdits {diagnostics : List Diagnostic} {required : Applicability} {edit : Edit} :
    edit ∈ askedEdits diagnostics required ↔
      ∃ fix, IsApplicable diagnostics required fix ∧ edit ∈ fix.edits := by
  simp only [askedEdits, List.mem_flatMap, mem_askedFixes]

def Fix.IsLone (fix : Fix) : Prop :=
  ∃ edit, fix.edits = [edit]

instance (fix : Fix) : Decidable fix.IsLone :=
  decidable_of_iff (fix.edits.length = 1) List.length_eq_one_iff

theorem Fix.start_of_edits_eq {fix : Fix} {edit : Edit} (shape : fix.edits = [edit]) :
    fix.start = edit.span.start := by
  simp only [Fix.start, shape, List.head_cons]

section Selection

theorem Brought.length_eq {made all : List Edit} {fixes : List Fix}
    (brought : Brought made fixes all) (lone : ∀ fix ∈ fixes, fix.IsLone) :
    all.length = made.length + fixes.length := by
  induction brought with
  | done made => rfl
  | @fix made all fix rest present later ih =>
      obtain ⟨edit, shape⟩ := lone fix List.mem_cons_self
      have one : (fix.pending made).length = 1 := by
        have few : (fix.pending made).length ≤ [edit].length := by
          rw [← shape]
          exact List.length_filter_le _ _
        have some := List.length_pos_iff.2 present
        rw [List.length_singleton] at few
        omega
      have total := ih fun other member => lone other (List.mem_cons_of_mem _ member)
      rw [total, List.length_append, one, List.length_cons]
      omega

theorem lt_reachedBy_of_not_fits {made : List Edit} {fix : Fix} {edit : Edit}
    (shape : fix.edits = [edit]) (skipped : fix.fits made = false) (new : edit ∉ made) :
    edit.span.start < reachedBy made := by
  have pending : fix.pending made = [edit] := by simp [Fix.pending, shape, new]
  simpa [pending] using not_fits_iff.1 skipped

variable {fixes : List Fix} (lone : ∀ fix ∈ fixes, fix.IsLone)

include lone

theorem length_taken_of_lone : (taken [] fixes).length = (selected [] fixes).length := by
  have total := (brought_taken [] fixes).length_eq
    fun fix member => lone fix ((taken_sublist [] fixes).subset member)
  simpa using total.symm

theorem start_le_of_mem_selected {behind : List Fix}
    (ordered : (fixes ++ behind).Pairwise fun first second => first.start ≤ second.start)
    {edit : Edit} (made : edit ∈ selected [] fixes) {fix : Fix} (member : fix ∈ behind) :
    edit.span.start ≤ fix.start := by
  obtain ⟨origin, among, own⟩ := exists_fix_of_mem_selected made
  obtain ⟨single, shape⟩ := lone origin among
  rw [shape, List.mem_singleton] at own
  rw [own, ← Fix.start_of_edits_eq shape]
  exact (List.pairwise_append.1 ordered).2.2 origin among fix member

theorem mem_or_overlaps_of_lone
    (ordered : fixes.Pairwise fun first second => first.start ≤ second.start) {fix : Fix}
    (member : fix ∈ fixes) {edit : Edit} (shape : fix.edits = [edit])
    (filled : edit.span.start < edit.span.stop) :
    edit ∈ selected [] fixes ∨
      ∃ other ∈ selected [] fixes, edit.span.overlaps other.span = true := by
  obtain ⟨before, after, rfl⟩ := List.append_of_mem member
  have whole : selected [] (before ++ fix :: after) =
      selected (grown (selected [] before) fix) after := selected_append [] before (fix :: after)
  have kept := (brought_taken (grown (selected [] before) fix) after).subset
  rw [whole]
  cases fits : fix.fits (selected [] before) with
  | true => exact .inl (kept (mem_grown_of_fits fits (by simp [shape])))
  | false =>
      rw [grown_of_not_fits fits] at kept ⊢
      by_cases known : edit ∈ selected [] before
      · exact .inl (kept known)
      · right
        obtain ⟨last, present, early⟩ :=
          exists_of_lt_reachedBy (lt_reachedBy_of_not_fits shape fits known)
        have sooner := start_le_of_mem_selected
          (fun other among => lone other (List.mem_append_left _ among)) ordered present
          List.mem_cons_self
        rw [Fix.start_of_edits_eq shape] at sooner
        refine ⟨last, kept present, ?_⟩
        rw [Span.overlaps_iff]
        omega

end Selection

theorem applicableFixes_ordered (diagnostics : List Diagnostic) (required : Applicability) :
    (applicableFixes diagnostics required).Pairwise
      fun first second => first.start ≤ second.start :=
  (List.pairwise_mergeSort (numbered_trans Fix.start) (numbered_total Fix.start) _).imp
    of_decide_eq_true

section Applied

variable {source : String} {diagnostics : List Diagnostic} {required : Applicability}
  (lone : ∀ fix, IsApplicable diagnostics required fix → fix.IsLone)

include lone

theorem isLone_of_mem_applicableFixes :
    ∀ fix ∈ applicableFixes diagnostics required, fix.IsLone :=
  fun fix member => lone fix (mem_applicableFixes.1 member)

theorem fixFits_of_lone
    (bounded : ∀ edit ∈ askedEdits diagnostics required,
      IsBoundary source edit.span.start ∧ IsBoundary source edit.span.stop) :
    ∀ fix ∈ applicableFixes diagnostics required, FixFits source fix := by
  intro fix member
  obtain ⟨edit, shape⟩ := lone fix (mem_applicableFixes.1 member)
  have own : edit ∈ fix.edits := by simp [shape]
  exact .of_edits_eq shape
    (bounded edit (mem_askedEdits.2 ⟨fix, mem_applicableFixes.1 member, own⟩))

end Applied

section Maximal

/-- The edits made are among those asked for, do not overlap, and leave out no edit without one that
overlaps it. -/
structure MaximalSelection (asked made : List Edit) : Prop where
  subset : made ⊆ asked
  apart : made.Pairwise fun first second => ¬first.span.overlaps second.span
  maximal : ∀ edit ∈ asked, edit ∈ made ∨ ∃ other ∈ made, edit.span.overlaps other.span

namespace MaximalSelection

variable {asked made : List Edit} (selection : MaximalSelection asked made)

include selection

theorem subset_of_apart
    (apart : ∀ first ∈ asked, ∀ second ∈ asked, first ≠ second →
      ¬first.span.overlaps second.span) : asked ⊆ made := by
  intro edit member
  rcases selection.maximal edit member with present | ⟨other, present, met⟩
  · exact present
  · by_cases same : edit = other
    · rwa [same]
    · exact absurd met (apart edit member other (selection.subset present) same)

theorem perm_dedup (distinct : made.Nodup)
    (apart : ∀ first ∈ asked, ∀ second ∈ asked, first ≠ second →
      ¬first.span.overlaps second.span) : made.Perm asked.dedup := by
  rw [List.perm_ext_iff_of_nodup distinct (List.nodup_dedup asked)]
  intro edit
  rw [List.mem_dedup]
  exact ⟨fun present => selection.subset present, fun own => selection.subset_of_apart apart own⟩

theorem perm_of_pairwise (distinct : made.Nodup)
    (filled : ∀ edit ∈ asked, edit.span.start < edit.span.stop)
    (apart : asked.Pairwise fun first second => ¬first.span.overlaps second.span) :
    made.Perm asked := by
  have symmetric : Std.Symm fun first second : Edit => ¬first.span.overlaps second.span :=
    ⟨fun first second free => by rwa [Span.overlaps_comm]⟩
  have unlike : asked.Nodup := by
    apply apart.imp_of_mem
    rintro first second member - free rfl
    exact free (Span.overlaps_self (filled first member))
  have once := selection.perm_dedup distinct fun first own second own' => apart.forall own own'
  rwa [unlike.dedup] at once

end MaximalSelection

variable {source : String} {diagnostics : List Diagnostic} {required : Applicability}
  (lone : ∀ fix, IsApplicable diagnostics required fix → fix.IsLone)

include lone

theorem maximalSelection_of_lone
    (filled : ∀ edit ∈ askedEdits diagnostics required, edit.span.start < edit.span.stop)
    (apart : (selected [] (applicableFixes diagnostics required)).Pairwise
      fun first second => first.span.stop ≤ second.span.start) :
    MaximalSelection (askedEdits diagnostics required)
      (selected [] (applicableFixes diagnostics required)) := by
  refine ⟨?_, apart.imp Span.not_overlaps_of_le, ?_⟩
  · intro edit member
    obtain ⟨fix, among, own⟩ := exists_fix_of_mem_selected member
    exact mem_askedEdits.2 ⟨fix, mem_applicableFixes.1 among, own⟩
  · intro edit member
    obtain ⟨fix, asked, own⟩ := mem_askedEdits.1 member
    obtain ⟨other, shape⟩ := lone fix asked
    rw [shape, List.mem_singleton] at own
    exact mem_or_overlaps_of_lone (isLone_of_mem_applicableFixes lone)
      (applicableFixes_ordered diagnostics required) (mem_applicableFixes.2 asked) (own ▸ shape)
      (filled edit member)

/-- Fixes of one edit each, none of them empty, are skipped only for an overlap: the edits made are a
maximal choice without overlaps, and they are counted. If no two different edits overlap, each edit is
made, and once. -/
theorem applyFixes_selects_maximally
    (bounded : ∀ edit ∈ askedEdits diagnostics required,
      IsBoundary source edit.span.start ∧ IsBoundary source edit.span.stop)
    (filled : ∀ edit ∈ askedEdits diagnostics required, edit.span.start < edit.span.stop) :
    ∃ fixed made, applyFixes source diagnostics required = .ok fixed ∧
      Spliced 0 source.toList made fixed.code.toList ∧ fixed.count = made.length ∧
      MaximalSelection (askedEdits diagnostics required) made ∧
      ((∀ first ∈ askedEdits diagnostics required, ∀ second ∈ askedEdits diagnostics required,
          first ≠ second → ¬first.span.overlaps second.span) →
        made.Perm (askedEdits diagnostics required).dedup) ∧
      ((askedEdits diagnostics required).Pairwise
          (fun first second => ¬first.span.overlaps second.span) →
        made.Perm (askedEdits diagnostics required) ∧
          fixed.count = (askedEdits diagnostics required).length) := by
  have fits := fixFits_of_lone lone bounded
  obtain ⟨code, applied, spliced⟩ := applyFixes_eq_selected fits
  have count := length_taken_of_lone (isLone_of_mem_applicableFixes lone)
  have selection := maximalSelection_of_lone lone filled spliced.apart
  have distinct := nodup_selected (fun fix member => (fits fix member).toIsOrderly) List.nodup_nil
  refine ⟨_, _, applied, spliced, count, selection, selection.perm_dedup distinct, fun apart => ?_⟩
  have every := selection.perm_of_pairwise distinct filled apart
  exact ⟨every, count.trans every.length_eq⟩

end Maximal

/-- An edit asked for twice, one that overlaps it, one that starts with it, and one that is apart and
asked for first. -/
def crowdedDiagnostics : List Diagnostic :=
  [askFor .safe (.writing 4 2 "D"),
    askFor .safe (.writing 0 3 "X"),
    askFor .optIn (.writing 0 3 "X"),
    askFor .safe (.writing 1 3 "Y"),
    askFor .safe (.writing 0 1 "")]

/-- Of the five edits a maximal choice is made, of the first two both. -/
theorem applyFixes_selects_crowdedDiagnostics :
    (∀ fix ∈ crowdedDiagnostics.filterMap (·.fix), fix.IsLone) ∧
    (∀ edit ∈ askedEdits crowdedDiagnostics .optIn,
      IsBoundary "aébcdef" edit.span.start ∧ IsBoundary "aébcdef" edit.span.stop) ∧
    (∀ edit ∈ askedEdits crowdedDiagnostics .optIn, edit.span.start < edit.span.stop) ∧
    (∃ fixed made, applyFixes "aébcdef" crowdedDiagnostics .optIn = .ok fixed ∧
      Spliced 0 "aébcdef".toList made fixed.code.toList ∧ fixed.count = made.length ∧
      MaximalSelection (askedEdits crowdedDiagnostics .optIn) made) ∧
    ∃ fixed, applyFixes "aébcdef" (crowdedDiagnostics.take 2) .optIn = .ok fixed ∧
      fixed.count = 2 := by
  have lone : ∀ fix ∈ crowdedDiagnostics.filterMap (·.fix), fix.IsLone := by decide
  have bounded : ∀ edit ∈ askedEdits crowdedDiagnostics .optIn,
      IsBoundary "aébcdef" edit.span.start ∧ IsBoundary "aébcdef" edit.span.stop := by decide
  have filled : ∀ edit ∈ askedEdits crowdedDiagnostics .optIn,
      edit.span.start < edit.span.stop := by decide
  have lone' : ∀ fix ∈ (crowdedDiagnostics.take 2).filterMap (·.fix), fix.IsLone := by decide
  have part : ∀ edit ∈ askedEdits (crowdedDiagnostics.take 2) .optIn,
      edit ∈ askedEdits crowdedDiagnostics .optIn := by decide
  obtain ⟨fixed, made, applied, spliced, count, selection, -, -⟩ :=
    applyFixes_selects_maximally (fun fix asked => lone fix asked.1) bounded filled
  obtain ⟨fixed', made', applied', -, -, -, -, every⟩ :=
    applyFixes_selects_maximally (fun fix asked => lone' fix asked.1)
      (fun edit member => bounded edit (part edit member))
      (fun edit member => filled edit (part edit member))
  exact ⟨lone, bounded, filled, ⟨fixed, made, applied, spliced, count, selection⟩,
    fixed', applied', (every (by decide)).2⟩

section Order

theorem foldlM_fix_congr {source : String} {left right : List Fix}
    (same : left.map (·.edits) = right.map (·.edits)) (splice : Splice) :
    left.foldlM (Splice.fix source) splice = right.foldlM (Splice.fix source) splice := by
  induction left generalizing right splice with
  | nil =>
      rw [List.map_nil, eq_comm, List.map_eq_nil_iff] at same
      rw [same]
  | cons fix rest ih =>
      cases right with
      | nil => simp at same
      | cons fix' rest' =>
          obtain ⟨heads, tails⟩ := List.cons.inj same
          have step : splice.fix source fix = splice.fix source fix' := by
            simp only [Splice.fix, show fix.edits = fix'.edits from heads]
          rw [List.foldlM_cons, List.foldlM_cons, step]
          exact bind_congr fun next => ih tails next

theorem applyFixes_congr {source : String} {left right : List Diagnostic}
    {required : Applicability}
    (same : (applicableFixes left required).map (·.edits) =
      (applicableFixes right required).map (·.edits)) :
    applyFixes source left required = applyFixes source right required := by
  rw [applyFixes, applyFixes, foldlM_fix_congr same]

theorem map_edits_applicableFixes {left right : List Diagnostic} {required : Applicability}
    (same : ∀ offset, ((askedFixes left required).filter (·.start = offset)).map (·.edits) =
      ((askedFixes right required).filter (·.start = offset)).map (·.edits)) :
    (applicableFixes left required).map (·.edits) =
      (applicableFixes right required).map (·.edits) :=
  map_mergeSort_eq_of_filter_eq Fix.start (·.edits) same

theorem map_edits_filter_of_lone {fixes : List Fix} (lone : ∀ fix ∈ fixes, fix.IsLone)
    (offset : Nat) : (fixes.filter (·.start = offset)).map (·.edits) =
      ((fixes.flatMap (·.edits)).filter (·.span.start = offset)).map ([·]) := by
  induction fixes with
  | nil => rfl
  | cons fix rest ih =>
      obtain ⟨edit, shape⟩ := lone fix List.mem_cons_self
      have tails := ih fun other member => lone other (List.mem_cons_of_mem _ member)
      rw [List.flatMap_cons, shape, List.singleton_append]
      by_cases here : edit.span.start = offset
      · simpa [List.filter_cons, Fix.start_of_edits_eq shape, here, shape] using tails
      · simpa [List.filter_cons, Fix.start_of_edits_eq shape, here] using tails

theorem askedFixes_perm {left right : List Diagnostic} (perm : left.Perm right)
    (required : Applicability) : (askedFixes left required).Perm (askedFixes right required) :=
  (perm.filterMap _).filter _

theorem filter_start_eq_of_ties {left right : List Edit} (perm : left.Perm right)
    (ties : ∀ first ∈ left, ∀ second ∈ left, first ≠ second → first.span.start = second.span.start →
      left.filter (·.span.start = first.span.start) =
        right.filter (·.span.start = first.span.start)) (offset : Nat) :
    left.filter (·.span.start = offset) = right.filter (·.span.start = offset) := by
  by_cases rivals : ∃ first ∈ left, ∃ second ∈ left,
      first ≠ second ∧ first.span.start = offset ∧ second.span.start = offset
  · obtain ⟨first, own, second, own', unlike, rfl, same⟩ := rivals
    exact ties first own second own' unlike same.symm
  -- what starts here is all the same edit, so that any two lists of it in one number are equal
  · have alike (first second : Edit) (own : first ∈ left.filter (·.span.start = offset))
        (own' : second ∈ right.filter (·.span.start = offset)) : first = second := by
      by_contra unlike
      rw [List.mem_filter, decide_eq_true_eq] at own own'
      exact rivals ⟨first, own.1, second, perm.mem_iff.2 own'.1, unlike, own.2, own'.2⟩
    exact @List.Perm.eq_of_pairwise _ (fun _ _ => True) _ _
      (fun first second own own' _ _ => alike first second own own')
      (List.pairwise_of_forall fun _ _ => trivial) (List.pairwise_of_forall fun _ _ => trivial)
      (perm.filter _)

/-- Diagnostics that ask for one edit each can be given in any order, as long as different edits that
start at the same offset are asked for in the same order; without such edits every order will do. -/
theorem applyFixes_perm_of_ties {source : String} {left right : List Diagnostic}
    {required : Applicability} (perm : left.Perm right)
    (lone : ∀ fix, IsApplicable left required fix → fix.IsLone)
    (bounded : ∀ edit ∈ askedEdits left required,
      IsBoundary source edit.span.start ∧ IsBoundary source edit.span.stop)
    (ties : ∀ first ∈ askedEdits left required, ∀ second ∈ askedEdits left required,
      first ≠ second → first.span.start = second.span.start →
        (askedEdits left required).filter (·.span.start = first.span.start) =
          (askedEdits right required).filter (·.span.start = first.span.start)) :
    ∃ fixed, applyFixes source left required = .ok fixed ∧
      applyFixes source right required = .ok fixed := by
  have fixes := askedFixes_perm perm required
  have edits : (askedEdits left required).Perm (askedEdits right required) := fixes.flatMap_right _
  have loneLeft : ∀ fix ∈ askedFixes left required, fix.IsLone :=
    fun fix member => lone fix (mem_askedFixes.1 member)
  have loneRight : ∀ fix ∈ askedFixes right required, fix.IsLone :=
    fun fix member => loneLeft fix (fixes.mem_iff.2 member)
  have same : (applicableFixes left required).map (·.edits) =
      (applicableFixes right required).map (·.edits) := by
    apply map_edits_applicableFixes
    intro offset
    rw [map_edits_filter_of_lone loneLeft, map_edits_filter_of_lone loneRight]
    exact congrArg (List.map ([·])) (filter_start_eq_of_ties edits ties offset)
  obtain ⟨code, applied, -⟩ := applyFixes_eq_selected (fixFits_of_lone lone bounded)
  exact ⟨_, applied, (applyFixes_congr same).symm.trans applied⟩

/-- A replacement at the start of the text, and an insertion there. -/
def rivalDiagnostics : List Diagnostic :=
  [askFor .safe (.writing 0 2 "X"),
    askFor .safe (.writing 0 0 "I")]

/-- A diagnostic of another place can be moved to the other side of both. -/
theorem applyFixes_perm_rivalDiagnostics :
    let later := askFor .optIn (.writing 3 2 "")
    (later :: rivalDiagnostics).Perm (rivalDiagnostics ++ [later]) ∧
      ∃ fixed, applyFixes "abcédef" (later :: rivalDiagnostics) .optIn = .ok fixed ∧
        applyFixes "abcédef" (rivalDiagnostics ++ [later]) .optIn = .ok fixed := by
  intro later
  have perm : (later :: rivalDiagnostics).Perm (rivalDiagnostics ++ [later]) :=
    (List.perm_append_singleton later rivalDiagnostics).symm
  have lone : ∀ fix ∈ (later :: rivalDiagnostics).filterMap (·.fix), fix.IsLone := by decide
  exact ⟨perm, applyFixes_perm_of_ties perm (fun fix asked => lone fix asked.1) (by decide)
    (by decide)⟩

/-- Which of two edits that start at the same offset is asked for first shows in the answer. -/
theorem not_always_applyFixes_perm :
    ¬∀ (source : String) (required : Applicability) (left right : List Diagnostic),
      left.Perm right →
      (∀ fix ∈ left.filterMap (·.fix), fix.IsLone ∧ ∀ edit ∈ fix.edits,
        IsBoundary source edit.span.start ∧ IsBoundary source edit.span.stop) →
      applyFixes source left required = applyFixes source right required := by
  intro always
  have inOrder : applicableFixes rivalDiagnostics .safe = rivalDiagnostics.filterMap (·.fix) :=
    List.mergeSort_of_pairwise (by decide)
  have reversed : applicableFixes rivalDiagnostics.reverse .safe =
      rivalDiagnostics.reverse.filterMap (·.fix) := List.mergeSort_of_pairwise (by decide)
  have replaced : applyFixes "abcd" rivalDiagnostics .safe = .ok ⟨"Xcd", 1⟩ := by
    rw [applyFixes, inOrder]
    rfl
  have both : applyFixes "abcd" rivalDiagnostics.reverse .safe = .ok ⟨"IXcd", 2⟩ := by
    rw [applyFixes, reversed]
    rfl
  have same := always "abcd" .safe rivalDiagnostics rivalDiagnostics.reverse
    (List.reverse_perm rivalDiagnostics).symm (by decide)
  rw [replaced, both] at same
  revert same
  decide

end Order

end NameLint
