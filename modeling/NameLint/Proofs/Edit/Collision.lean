import NameLint.Proofs.Edit.Apply

/-!
# Edits of one fix that collide

Edits of different fixes may overlap, touch or repeat in any way: then a fix is skipped. But of a fix
that is taken only the first edit is compared with what is made, so when one of its later edits
starts before the end of the edit in front of it, the cut between the two is reversed and the run is
abandoned. Nothing else abandons a run whose edits lie between characters.
-/

namespace NameLint

open NameLint.Text

set_option autoImplicit false

namespace Stands

variable {source : String} {made : List Edit} {splice : Splice}
  (stands : Stands source made splice)

include stands

theorem edit_eq_error {edit : Edit} (early : edit.span.start < reachedBy made) :
    splice.edit source edit = .error .misplacedCut := by
  rw [← stands.reached_eq] at early
  rw [Splice.edit, cut, if_neg (Nat.not_le.2 early)]
  rfl

/-- The edits of a fix are made up to the first one that starts too early. -/
theorem edits_eq_error {first : Edit} {rest : List Edit}
    (bounded : ∀ edit ∈ first :: rest,
      IsBoundary source edit.span.start ∧ IsBoundary source edit.span.stop)
    (behind : reachedBy made ≤ first.span.start)
    (collide : ¬(first :: rest).IsChain fun first second => first.span.stop ≤ second.span.start) :
    (first :: rest).foldlM (Splice.edit source) splice = .error .misplacedCut := by
  induction rest generalizing made splice first with
  | nil => exact absurd (List.isChain_singleton first) collide
  | cons second others ih =>
      obtain ⟨next, step, standsNext, -⟩ :=
        stands.edit (bounded first List.mem_cons_self) behind
      rw [List.foldlM_cons, step]
      change (second :: others).foldlM (Splice.edit source) next = .error .misplacedCut
      by_cases free : first.span.stop ≤ second.span.start
      · rw [List.isChain_cons_cons] at collide
        exact ih standsNext (fun edit member => bounded edit (List.mem_cons_of_mem _ member))
          (by rwa [reachedBy_concat]) fun later => collide ⟨free, later⟩
      · rw [List.foldlM_cons, standsNext.edit_eq_error (by rw [reachedBy_concat]; omega)]
        rfl

theorem fix_eq_error {fix : Fix}
    (bounded : ∀ edit ∈ fix.edits,
      IsBoundary source edit.span.start ∧ IsBoundary source edit.span.stop)
    (fits : fix.fits made)
    (collide : ¬(fix.pending made).IsChain
      fun first second => first.span.stop ≤ second.span.start) :
    splice.fix source fix = .error .misplacedCut := by
  obtain ⟨first, rest, shape, behind⟩ := exists_of_fits fits
  have own : ∀ edit ∈ fix.pending made,
      IsBoundary source edit.span.start ∧ IsBoundary source edit.span.stop :=
    fun edit member => bounded edit (mem_pending.1 member).1
  rw [shape] at own collide
  rw [stands.fix_of_fits fits, shape, stands.edits_eq_error own behind collide]
  rfl

theorem fixes_eq_error {fixes : List Fix}
    (bounded : ∀ fix ∈ fixes, ∀ edit ∈ fix.edits,
      IsBoundary source edit.span.start ∧ IsBoundary source edit.span.stop)
    (collide : ¬TakenApart made fixes) :
    fixes.foldlM (Splice.fix source) splice = .error .misplacedCut := by
  induction fixes generalizing made splice with
  | nil => exact absurd trivial collide
  | cons fix rest ih =>
      have own := bounded fix List.mem_cons_self
      rw [List.foldlM_cons]
      by_cases apart : fix.fits made →
          (fix.pending made).IsChain fun first second => first.span.stop ≤ second.span.start
      · obtain ⟨next, step, standsNext, -⟩ := stands.fix own
          fun fits => pairwise_of_isChain (apart fits)
        rw [step]
        exact ih standsNext (fun other member => bounded other (List.mem_cons_of_mem _ member))
          fun later => collide ⟨apart, later⟩
      · obtain ⟨fits, crossed⟩ := Classical.not_imp.1 apart
        rw [stands.fix_eq_error own fits crossed]
        rfl

end Stands

/-- Edits between characters can be asked for in any number and order: applying their fixes gives an
answer unless a fix that is taken brings edits that are out of order or overlap. No run comes to that
when the edits of each single fix are in order and apart, however fixes lie to each other. -/
theorem applyFixes_abandoned_iff_collision {source : String} {diagnostics : List Diagnostic}
    (bounded : ∀ fix ∈ diagnostics.filterMap (·.fix), ∀ edit ∈ fix.edits,
      IsBoundary source edit.span.start ∧ IsBoundary source edit.span.stop)
    (required : Applicability) :
    ((∃ fixed, applyFixes source diagnostics required = .ok fixed) ↔
      TakenApart [] (applicableFixes diagnostics required)) ∧
    (applyFixes source diagnostics required = .error .misplacedCut ↔
      ¬TakenApart [] (applicableFixes diagnostics required)) ∧
    ((∀ fix, IsApplicable diagnostics required fix →
        fix.edits.IsChain fun first second => first.span.stop ≤ second.span.start) →
      ∃ fixed, applyFixes source diagnostics required = .ok fixed) := by
  have applicable : ∀ fix ∈ applicableFixes diagnostics required, ∀ edit ∈ fix.edits,
      IsBoundary source edit.span.start ∧ IsBoundary source edit.span.stop :=
    fun fix member => bounded fix (mem_applicableFixes.1 member).1
  have answered (apart : TakenApart [] (applicableFixes diagnostics required)) :
      ∃ fixed, applyFixes source diagnostics required = .ok fixed := by
    obtain ⟨code, applied, -⟩ := applyFixes_of_takenApart applicable apart
    exact ⟨_, applied⟩
  have abandoned (collide : ¬TakenApart [] (applicableFixes diagnostics required)) :
      applyFixes source diagnostics required = .error .misplacedCut := by
    rw [applyFixes, (stands_nothing source).fixes_eq_error applicable collide]
    rfl
  refine ⟨⟨?_, answered⟩, ⟨?_, abandoned⟩, ?_⟩
  · rintro ⟨fixed, applied⟩
    by_contra collide
    rw [abandoned collide] at applied
    simp at applied
  · intro failed apart
    obtain ⟨fixed, applied⟩ := answered apart
    rw [failed] at applied
    simp at applied
  · intro each
    exact answered (takenApart_of_isChain [] fun fix member =>
      each fix (mem_applicableFixes.1 member))

/-- One fix, the second edit of which starts inside the first. -/
def collidingDiagnostics : List Diagnostic :=
  [⟨⟨"Style", "style", none, .always⟩, default,
    some ⟨[.writing 0 4 "X", .writing 2 4 "Y"], .safe, by decide, by decide⟩⟩]

theorem applicableFixes_colliding :
    applicableFixes collidingDiagnostics .safe = collidingDiagnostics.filterMap (·.fix) :=
  List.mergeSort_singleton _

/-- The fixes that overlap one another are applied, the one that overlaps itself is not. -/
theorem applyFixes_shared_and_colliding :
    ((∀ fix ∈ sharedDiagnostics.filterMap (·.fix), ∀ edit ∈ fix.edits,
        IsBoundary "aébcdef" edit.span.start ∧ IsBoundary "aébcdef" edit.span.stop) ∧
      ∃ fixed, applyFixes "aébcdef" sharedDiagnostics .optIn = .ok fixed) ∧
    (∀ fix ∈ collidingDiagnostics.filterMap (·.fix), ∀ edit ∈ fix.edits,
        IsBoundary "abcdef" edit.span.start ∧ IsBoundary "abcdef" edit.span.stop) ∧
      ¬∃ fixed, applyFixes "abcdef" collidingDiagnostics .safe = .ok fixed := by
  have bounded : ∀ fix ∈ sharedDiagnostics.filterMap (·.fix), ∀ edit ∈ fix.edits,
      IsBoundary "aébcdef" edit.span.start ∧ IsBoundary "aébcdef" edit.span.stop := by decide
  have bounded' : ∀ fix ∈ collidingDiagnostics.filterMap (·.fix), ∀ edit ∈ fix.edits,
      IsBoundary "abcdef" edit.span.start ∧ IsBoundary "abcdef" edit.span.stop := by decide
  have apart : ∀ fix ∈ sharedDiagnostics.filterMap (·.fix),
      fix.edits.IsChain fun first second => first.span.stop ≤ second.span.start := by decide
  refine ⟨⟨bounded, (applyFixes_abandoned_iff_collision bounded .optIn).2.2
    fun fix asked => apart fix asked.1⟩, bounded', ?_⟩
  rw [(applyFixes_abandoned_iff_collision bounded' .safe).1, applicableFixes_colliding]
  intro each
  exact absurd (each.1 (by decide)) (by decide)

/-- That all edits lie between characters is not enough for an answer. -/
theorem not_always_exists_applyFixes :
    ¬∀ (source : String) (diagnostics : List Diagnostic) (required : Applicability),
      (∀ fix ∈ diagnostics.filterMap (·.fix), ∀ edit ∈ fix.edits,
        IsBoundary source edit.span.start ∧ IsBoundary source edit.span.stop) →
      ∃ fixed, applyFixes source diagnostics required = .ok fixed := by
  intro always
  obtain ⟨fixed, applied⟩ := always "abcdef" collidingDiagnostics .safe (by decide)
  have abandoned : applyFixes "abcdef" collidingDiagnostics .safe = .error .misplacedCut := by
    rw [applyFixes, applicableFixes_colliding]
    rfl
  rw [abandoned] at applied
  simp at applied

end NameLint
