import NameLint.Proofs.Edit.Selection
import NameLint.Proofs.Edit.Shift
import NameLint.Proofs.Sort

/-!
# What applying fixes makes

The splice loop makes the selected edits and counts the fixes that bring them. It cannot fail as long
as the edits of every fix lie between characters of the source, in order and apart. So a fix is
applied as a whole or leaves no trace of its own.
-/

namespace NameLint

open NameLint.Text

set_option autoImplicit false

/-- The edits of the fix are orderly and lie between characters of the source. -/
structure FixFits (source : String) (fix : Fix) : Prop extends fix.IsOrderly where
  bounded : ∀ edit ∈ fix.edits,
    IsBoundary source edit.span.start ∧ IsBoundary source edit.span.stop

instance (source : String) (fix : Fix) : Decidable (FixFits source fix) :=
  decidable_of_iff
    (fix.edits.Nodup ∧
      (fix.edits.IsChain fun first second => first.span.stop ≤ second.span.start) ∧
      ∀ edit ∈ fix.edits, IsBoundary source edit.span.start ∧ IsBoundary source edit.span.stop)
    ⟨fun ⟨distinct, apart, bounded⟩ => ⟨⟨distinct, apart⟩, bounded⟩,
      fun fits => ⟨fits.distinct, fits.apart, fits.bounded⟩⟩

/-- A splice that stands behind the last of the edits made. -/
structure Stands (source : String) (made : List Edit) (splice : Splice) : Prop
    extends Made source made splice where
  position : splice.position = made.getLast?.map (·.span.stop)

theorem stands_nothing (source : String) : Stands source [] {} :=
  ⟨made_nothing source, rfl⟩

namespace Stands

variable {source : String} {made : List Edit} {splice : Splice}
  (stands : Stands source made splice)

include stands

theorem reached_eq : splice.reached = reachedBy made := by
  rw [Splice.reached, stands.position, reachedBy]

theorem edit {edit : Edit}
    (bounded : IsBoundary source edit.span.start ∧ IsBoundary source edit.span.stop)
    (behind : reachedBy made ≤ edit.span.start) :
    ∃ next, splice.edit source edit = .ok next ∧ Stands source (made ++ [edit]) next ∧
      next.fixed = splice.fixed := by
  rw [← stands.reached_eq] at behind
  obtain ⟨next, step, progress, position, fixed⟩ :=
    stands.toMade.edit bounded.1 bounded.2 behind
  refine ⟨next, step, ⟨progress, ?_⟩, fixed⟩
  rw [position, List.getLast?_concat]
  rfl

theorem edits {new : List Edit}
    (bounded : ∀ edit ∈ new, IsBoundary source edit.span.start ∧ IsBoundary source edit.span.stop)
    (apart : new.Pairwise fun first second => first.span.stop ≤ second.span.start)
    (behind : ∀ edit ∈ new, reachedBy made ≤ edit.span.start) :
    ∃ next, new.foldlM (Splice.edit source) splice = .ok next ∧ Stands source (made ++ new) next ∧
      next.fixed = splice.fixed := by
  induction new generalizing made splice with
  | nil => exact ⟨splice, rfl, by simpa using stands, rfl⟩
  | cons edit rest ih =>
      obtain ⟨heads, tails⟩ := List.pairwise_cons.1 apart
      obtain ⟨next, step, standsNext, fixed⟩ :=
        stands.edit (bounded edit List.mem_cons_self) (behind edit List.mem_cons_self)
      obtain ⟨last, run, standsLast, count⟩ := ih standsNext
        (fun other member => bounded other (List.mem_cons_of_mem _ member)) tails
        (fun other member => by
          rw [reachedBy_concat]
          exact heads other member)
      refine ⟨last, ?_, by simpa using standsLast, count.trans fixed⟩
      rw [List.foldlM_cons, step]
      exact run

theorem pending_eq (fix : Fix) : fix.edits.filter (· ∉ splice.applied) = fix.pending made := by
  apply List.filter_congr
  intro edit _
  rw [decide_eq_decide, not_iff_not]
  exact stands.applied edit

theorem blocked (edit : Edit) : splice.position.any (edit.span.start < ·) = true ↔
    edit.span.start < reachedBy made := by
  rw [stands.position, reachedBy]
  cases made.getLast? <;> simp

theorem fix_of_not_fits {fix : Fix} (skipped : fix.fits made = false) :
    splice.fix source fix = .ok splice := by
  rcases not_fits_iff.1 skipped with none | ⟨first, rest, shape, early⟩
  · simp only [Splice.fix, stands.pending_eq, none]
  · simp only [Splice.fix, stands.pending_eq, shape, (stands.blocked first).2 early, if_true]

theorem fix_of_fits {fix : Fix} (fits : fix.fits made) :
    splice.fix source fix = ((fix.pending made).foldlM (Splice.edit source) splice >>=
      fun next => .ok { next with fixed := next.fixed + 1 }) := by
  obtain ⟨first, rest, shape, behind⟩ := exists_of_fits fits
  have open' : ¬splice.position.any (first.span.start < ·) = true := by
    rw [stands.blocked]
    exact Nat.not_lt.2 behind
  simp only [Splice.fix, stands.pending_eq, shape, open']
  rfl

/-- A fix of which the edits still to be made lie between characters, in order and apart, is made
when it fits. -/
theorem fix {fix : Fix}
    (bounded : ∀ edit ∈ fix.edits,
      IsBoundary source edit.span.start ∧ IsBoundary source edit.span.stop)
    (apart : fix.fits made →
      (fix.pending made).Pairwise fun first second => first.span.stop ≤ second.span.start) :
    ∃ next, splice.fix source fix = .ok next ∧ Stands source (grown made fix) next ∧
      next.fixed = splice.fixed + if fix.fits made then 1 else 0 := by
  cases fits : fix.fits made with
  | false =>
      exact ⟨splice, stands.fix_of_not_fits fits, by rwa [grown_of_not_fits fits], rfl⟩
  | true =>
      obtain ⟨next, run, standsNext, count⟩ := stands.edits
        (fun edit member => bounded edit (mem_pending.1 member).1) (apart fits)
        (fun edit member => reachedBy_le_of_apart (apart fits) fits member)
      refine ⟨{ next with fixed := next.fixed + 1 }, ?_, ?_, by simp [count]⟩
      · rw [stands.fix_of_fits fits, run]
        rfl
      · rw [grown_of_fits fits]
        exact ⟨⟨standsNext.copied, standsNext.applied⟩, standsNext.position⟩

theorem fixes {fixes : List Fix}
    (bounded : ∀ fix ∈ fixes, ∀ edit ∈ fix.edits,
      IsBoundary source edit.span.start ∧ IsBoundary source edit.span.stop)
    (apart : TakenApart made fixes) :
    ∃ last, fixes.foldlM (Splice.fix source) splice = .ok last ∧
      Stands source (selected made fixes) last ∧
      last.fixed = splice.fixed + (taken made fixes).length := by
  induction fixes generalizing made splice with
  | nil => exact ⟨splice, rfl, stands, rfl⟩
  | cons fix rest ih =>
      obtain ⟨own, later⟩ := apart
      obtain ⟨next, step, standsNext, count⟩ := stands.fix
        (bounded fix List.mem_cons_self) fun fits => pairwise_of_isChain (own fits)
      obtain ⟨last, run, standsLast, total⟩ := ih standsNext
        (fun other member => bounded other (List.mem_cons_of_mem _ member)) later
      refine ⟨last, ?_, standsLast, ?_⟩
      · rw [List.foldlM_cons, step]
        exact run
      · rw [total, count, taken]
        split
        · simp only [List.length_cons]
          omega
        · simp

end Stands

/-- Applying fixes succeeds, makes the selected edits and counts the fixes that bring them, if what
each of these fixes brings is in order and apart. -/
theorem applyFixes_of_takenApart {source : String} {diagnostics : List Diagnostic}
    {required : Applicability}
    (bounded : ∀ fix ∈ applicableFixes diagnostics required, ∀ edit ∈ fix.edits,
      IsBoundary source edit.span.start ∧ IsBoundary source edit.span.stop)
    (apart : TakenApart [] (applicableFixes diagnostics required)) :
    ∃ code, applyFixes source diagnostics required =
        .ok ⟨code, (taken [] (applicableFixes diagnostics required)).length⟩ ∧
      Spliced 0 source.toList (selected [] (applicableFixes diagnostics required)) code.toList := by
  obtain ⟨last, run, stands, count⟩ := (stands_nothing source).fixes bounded apart
  obtain ⟨code, finished, spliced⟩ := stands.toMade.finish
  refine ⟨code, ?_, spliced⟩
  rw [applyFixes, run]
  simp only [bind, Except.bind, finished, count, pure, Except.pure, Nat.zero_add]

theorem applyFixes_eq_selected {source : String} {diagnostics : List Diagnostic}
    {required : Applicability}
    (fits : ∀ fix ∈ applicableFixes diagnostics required, FixFits source fix) :
    ∃ code, applyFixes source diagnostics required =
        .ok ⟨code, (taken [] (applicableFixes diagnostics required)).length⟩ ∧
      Spliced 0 source.toList (selected [] (applicableFixes diagnostics required)) code.toList :=
  applyFixes_of_takenApart (fun fix member => (fits fix member).bounded)
    (takenApart_of_isChain [] fun fix member => (fits fix member).apart)

theorem FixFits.of_edits_eq {source : String} {fix : Fix} {edit : Edit}
    (shape : fix.edits = [edit])
    (bounded : IsBoundary source edit.span.start ∧ IsBoundary source edit.span.stop) :
    FixFits source fix := by
  refine ⟨⟨by simp [shape], by simp [shape]⟩, fun other own => ?_⟩
  rw [shape] at own
  rw [List.mem_singleton.1 own]
  exact bounded

theorem FixFits.ofEdit {source : String} {edit : Edit} (level : Applicability)
    (bounded : IsBoundary source edit.span.start ∧ IsBoundary source edit.span.stop) :
    FixFits source (Fix.ofEdit level edit) :=
  .of_edits_eq rfl bounded

/-- When the applicable fixes are of one edit each, in order and apart, the result is the source
with all of these edits made. -/
theorem applyFixes_of_ordered {source : String} {diagnostics : List Diagnostic}
    {required level : Applicability} {edits : List Edit}
    (applicable : (diagnostics.filterMap (·.fix)).filter (·.applies required) =
      edits.map (Fix.ofEdit level))
    (bounded : ∀ edit ∈ edits,
      IsBoundary source edit.span.start ∧ IsBoundary source edit.span.stop)
    (filled : ∀ edit ∈ edits, edit.span.start < edit.span.stop)
    (ordered : edits.Pairwise fun first second => first.span.stop ≤ second.span.start) :
    ∃ code, applyFixes source diagnostics required = .ok ⟨code, edits.length⟩ ∧
      Spliced 0 source.toList edits code.toList := by
  have sorted : applicableFixes diagnostics required = edits.map (Fix.ofEdit level) := by
    rw [applicableFixes, applicable]
    apply List.mergeSort_of_pairwise
    rw [List.pairwise_map]
    apply ordered.imp
    intro first second apart
    have size := first.span.start_le_stop
    rw [decide_eq_true_eq]
    exact Nat.le_trans size apart
  -- an edit that is not empty ends behind its start, so it is not made twice
  have distinct : edits.Nodup := by
    apply ordered.imp_of_mem
    rintro first second member - apart rfl
    have size := filled first member
    omega
  obtain ⟨all, both⟩ := @selected_ofEdit level [] edits distinct ordered fun _ _ => Nat.zero_le _
  have fits : ∀ fix ∈ applicableFixes diagnostics required, FixFits source fix := by
    rw [sorted]
    intro fix member
    obtain ⟨edit, own, rfl⟩ := List.mem_map.1 member
    exact .ofEdit level (bounded edit own)
  obtain ⟨code, applied, spliced⟩ := applyFixes_eq_selected fits
  rw [sorted, both, List.length_map] at applied
  rw [sorted, all, List.nil_append] at spliced
  exact ⟨code, applied, spliced⟩

theorem Spliced.apart {position : Nat} {text after : List Char} {edits : List Edit}
    (spliced : Spliced position text edits after) :
    edits.Pairwise fun first second => first.span.stop ≤ second.span.start := by
  induction spliced with
  | done position rest => exact .nil
  | edit start stop later ih =>
      exact .cons (fun other member => (later.within other member).1) ih

/-- The fixes of at least the required level, in the order of the diagnostics. -/
def askedFixes (diagnostics : List Diagnostic) (required : Applicability) : List Fix :=
  (diagnostics.filterMap (·.fix)).filter (·.applies required)

theorem applicableFixes_eq (diagnostics : List Diagnostic) (required : Applicability) :
    applicableFixes diagnostics required =
      (askedFixes diagnostics required).mergeSort fun left right => left.start ≤ right.start :=
  rfl

theorem askedFixes_append (left right : List Diagnostic) (required : Applicability) :
    askedFixes (left ++ right) required =
      askedFixes left required ++ askedFixes right required := by
  rw [askedFixes, List.filterMap_append, List.filter_append]
  rfl

theorem askedFixes_cons (diagnostic : Diagnostic) (rest : List Diagnostic)
    (required : Applicability) : askedFixes (diagnostic :: rest) required =
      (diagnostic.fix.filter (·.applies required)).toList ++ askedFixes rest required := by
  cases asked : diagnostic.fix with
  | none => simp [askedFixes, asked]
  | some fix => by_cases applies : fix.applies required <;>
      simp [askedFixes, asked, applies, Option.filter]

section Atomic

def IsApplicable (diagnostics : List Diagnostic) (required : Applicability) (fix : Fix) : Prop :=
  fix ∈ diagnostics.filterMap (·.fix) ∧ required.rank ≤ fix.applicability.rank

theorem mem_applicableFixes {diagnostics : List Diagnostic} {required : Applicability} {fix : Fix} :
    fix ∈ applicableFixes diagnostics required ↔ IsApplicable diagnostics required fix := by
  rw [applicableFixes, List.mem_mergeSort, List.mem_filter, Fix.applies, decide_eq_true_eq]
  rfl

/-- The edits made of the fixes that diagnostics ask for: in order, apart and each one once. A fix
is made whole, or an edit of it that is not made starts before another one has ended, and then the
edits that it has in common with other fixes are made for these alone. -/
structure MadeWhole (diagnostics : List Diagnostic) (required : Applicability)
    (made : List Edit) : Prop where
  asked : ∀ edit ∈ made, ∃ fix, IsApplicable diagnostics required fix ∧ edit ∈ fix.edits
  apart : made.Pairwise fun first second => first.span.stop ≤ second.span.start
  distinct : made.Nodup
  whole : ∀ fix, IsApplicable diagnostics required fix →
    (∀ edit ∈ fix.edits, edit ∈ made) ∨
    (∃ edit ∈ fix.edits, edit ∉ made ∧ ∃ other ∈ made, edit.span.start < other.span.stop) ∧
      ∀ edit ∈ fix.edits, edit ∈ made → ∃ other, IsApplicable diagnostics required other ∧
        other ≠ fix ∧ edit ∈ other.edits ∧ ∀ own ∈ other.edits, own ∈ made

/-- Fixes whose edits lie between characters, in order and apart, can be applied in any number and
order. Each of them is applied as a whole or not at all; the code is the source with exactly the
edits made, and the count is that of the fixes that bring one of these edits first, in the order in
which they are tried. -/
theorem applyFixes_makes_whole_fixes {source : String} {diagnostics : List Diagnostic}
    (fits : ∀ fix ∈ diagnostics.filterMap (·.fix), FixFits source fix)
    (required : Applicability) :
    ∃ fixed made counted, applyFixes source diagnostics required = .ok fixed ∧
      made = selected [] (applicableFixes diagnostics required) ∧
      MadeWhole diagnostics required made ∧ Spliced 0 source.toList made fixed.code.toList ∧
      counted = taken [] (applicableFixes diagnostics required) ∧
      counted = bringers made [] (applicableFixes diagnostics required) ∧
      counted.Sublist (applicableFixes diagnostics required) ∧ Brought [] counted made ∧
      fixed.count = counted.length := by
  have applicable : ∀ fix ∈ applicableFixes diagnostics required, FixFits source fix :=
    fun fix member => fits fix (mem_applicableFixes.1 member).1
  have orderly : ∀ fix ∈ applicableFixes diagnostics required, fix.IsOrderly :=
    fun fix member => (applicable fix member).toIsOrderly
  obtain ⟨code, applied, spliced⟩ := applyFixes_eq_selected applicable
  have sublist := taken_sublist [] (applicableFixes diagnostics required)
  have brought := brought_taken [] (applicableFixes diagnostics required)
  -- an edit is made for a fix that is made whole
  have origin (edit : Edit) (member : edit ∈ selected [] (applicableFixes diagnostics required)) :
      ∃ fix, IsApplicable diagnostics required fix ∧ edit ∈ fix.edits ∧
        ∀ own ∈ fix.edits, own ∈ selected [] (applicableFixes diagnostics required) := by
    rcases brought.exists_of_mem member with none | ⟨fix, among, own⟩
    · simp at none
    · exact ⟨fix, mem_applicableFixes.1 (sublist.subset among), own,
        brought.mem_of_mem_edits fix among⟩
  refine ⟨_, _, _, applied, rfl, ⟨?_, spliced.apart, nodup_selected orderly .nil, ?_⟩, spliced, rfl,
    taken_eq_bringers orderly, sublist, brought, rfl⟩
  · intro edit member
    obtain ⟨fix, asked, own, -⟩ := origin edit member
    exact ⟨fix, asked, own⟩
  · intro fix asked
    rcases selected_settles orderly (mem_applicableFixes.2 asked) with
      whole | ⟨left, own, out, early⟩
    · exact .inl whole
    · refine .inr ⟨⟨left, own, out, exists_of_lt_reachedBy early⟩, fun edit _ member => ?_⟩
      obtain ⟨other, otherAsked, otherOwn, otherWhole⟩ := origin edit member
      refine ⟨other, otherAsked, ?_, otherOwn, otherWhole⟩
      rintro rfl
      exact out (otherWhole left own)

theorem filter_ne_empty (text : String) : (some text).filter (· ≠ "") ≠ some "" := by
  simp [Option.filter_eq_some_iff]

/-- The edit that writes a text in the place of a number of bytes, a deletion if the text is empty. -/
def Edit.writing (start size : Nat) (text : String) : Edit :=
  ⟨⟨start, start + size, Nat.le_add_right start size⟩, (some text).filter (· ≠ ""),
    filter_ne_empty text⟩

def askFor (level : Applicability) (edit : Edit) : Diagnostic :=
  ⟨⟨"Style", "style", none, .always⟩, edit.span, some (Fix.ofEdit level edit)⟩

/-- Three fixes, the last one asked for first: the second has an edit in common with the first, and
another one before the end of what the first one makes; the third touches that end. -/
def sharedDiagnostics : List Diagnostic :=
  let replaced : Edit := ⟨⟨0, 3, by decide⟩, some "X", by decide⟩
  let inserted : Edit := ⟨⟨5, 5, by decide⟩, some "I", by decide⟩
  let deleted : Edit := ⟨⟨3, 4, by decide⟩, none, by decide⟩
  let touching : Edit := ⟨⟨5, 6, by decide⟩, some "Jé", by decide⟩
  let ask (fix : Fix) : Diagnostic := ⟨⟨"Style", "style", none, .always⟩, default, some fix⟩
  [ask ⟨[touching], .optIn, by decide, by decide⟩,
    ask ⟨[replaced, inserted], .safe, by decide, by decide⟩,
    ask ⟨[replaced, deleted], .safe, by decide, by decide⟩]

theorem applicableFixes_shared : applicableFixes sharedDiagnostics .optIn =
    (sharedDiagnostics.drop 1 ++ sharedDiagnostics.take 1).filterMap (·.fix) := by
  have asked : (sharedDiagnostics.filterMap (·.fix)).filter (·.applies .optIn) = [_, _, _] := rfl
  rw [applicableFixes, asked]
  simp only [mergeSort_cons_eq (numbered_trans Fix.start) (numbered_total Fix.start),
    List.mergeSort_nil]
  rfl

/-- Two fixes, of which the second has the edit of the first and one more. -/
def growingDiagnostics : List Diagnostic :=
  let first := Edit.writing 0 1 "X"
  let second := Edit.writing 1 1 "Y"
  let ask (fix : Fix) : Diagnostic := ⟨⟨"Style", "style", none, .always⟩, default, some fix⟩
  [ask ⟨[first], .safe, by decide, by decide⟩, ask ⟨[first, second], .safe, by decide, by decide⟩]

theorem applicableFixes_growing : applicableFixes growingDiagnostics .safe =
    growingDiagnostics.filterMap (·.fix) := by
  have asked : (growingDiagnostics.filterMap (·.fix)).filter (·.applies .safe) = [_, _] := rfl
  rw [applicableFixes, asked]
  simp only [mergeSort_cons_eq (numbered_trans Fix.start) (numbered_total Fix.start),
    List.mergeSort_nil]
  rfl

/-- Of the three fixes one is left out. Of the two, each brings an edit when it is its turn. -/
theorem applyFixes_sharedDiagnostics :
    ((∀ fix ∈ sharedDiagnostics.filterMap (·.fix), FixFits "aébcdef" fix) ∧
      applyFixes "aébcdef" sharedDiagnostics .optIn = .ok ⟨"XbcIJéef", 2⟩ ∧
      ∃ fixed made counted, applyFixes "aébcdef" sharedDiagnostics .optIn = .ok fixed ∧
        made = selected [] (applicableFixes sharedDiagnostics .optIn) ∧
        MadeWhole sharedDiagnostics .optIn made ∧
        Spliced 0 "aébcdef".toList made fixed.code.toList ∧
        counted = taken [] (applicableFixes sharedDiagnostics .optIn) ∧
        counted = bringers made [] (applicableFixes sharedDiagnostics .optIn) ∧
        counted.Sublist (applicableFixes sharedDiagnostics .optIn) ∧ Brought [] counted made ∧
        fixed.count = counted.length) ∧
    (∀ fix ∈ growingDiagnostics.filterMap (·.fix), FixFits "abc" fix) ∧
    ∃ fixed, applyFixes "abc" growingDiagnostics .safe = .ok fixed ∧ fixed.count = 2 := by
  have fits : ∀ fix ∈ sharedDiagnostics.filterMap (·.fix), FixFits "aébcdef" fix := by decide
  have applied : applyFixes "aébcdef" sharedDiagnostics .optIn = .ok ⟨"XbcIJéef", 2⟩ := by
    rw [applyFixes, applicableFixes_shared]
    rfl
  have growing : ∀ fix ∈ growingDiagnostics.filterMap (·.fix), FixFits "abc" fix := by decide
  obtain ⟨fixed, made, counted, done, rfl, -, -, -, brings, -, -, count⟩ :=
    applyFixes_makes_whole_fixes growing .safe
  refine ⟨⟨fits, applied, applyFixes_makes_whole_fixes fits .optIn⟩, growing, fixed, done, ?_⟩
  rw [count, brings, applicableFixes_growing]
  rfl

end Atomic

end NameLint
