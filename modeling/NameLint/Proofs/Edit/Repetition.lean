import NameLint.Proofs.Edit.Apply

/-!
# Diagnostics given again

A fix that has been tried does not fit from then on: its edits are made, or the first one that is not
made starts before the end of the last edit made, and what is made later lies behind that end. So a
copy of a diagnostic, which the sort puts behind the diagnostic itself, changes nothing.
-/

namespace NameLint

open NameLint.Text

set_option autoImplicit false

section Tried

variable {made : List Edit} {fix : Fix}

theorem subset_grown (made : List Edit) (fix : Fix) : made ⊆ grown made fix := by
  unfold grown
  split
  · exact List.subset_append_left _ _
  · exact List.Subset.refl _

theorem pending_of_subset {all : List Edit} (more : made ⊆ all) (fix : Fix) :
    fix.pending all = (fix.pending made).filter (· ∉ all) := by
  rw [Fix.pending, Fix.pending, List.filter_filter]
  apply List.filter_congr
  intro edit _
  by_cases present : edit ∈ all
  · simp [present]
  · have absent : edit ∉ made := fun known => present (more known)
    simp [present, absent]

theorem not_fits_grown_self (made : List Edit) (fix : Fix) :
    fix.fits (grown made fix) = false := by
  cases fits : fix.fits made with
  | false => rwa [grown_of_not_fits fits]
  | true =>
      have none : fix.pending (grown made fix) = [] := by
        rw [Fix.pending, List.filter_eq_nil_iff]
        intro edit own
        simpa using mem_grown_of_fits fits own
      exact not_fits_iff.2 (.inl none)

theorem not_fits_grown {other : Fix} (orderly : other.IsOrderly) (skipped : fix.fits made = false) :
    fix.fits (grown made other) = false := by
  have left := pending_of_subset (subset_grown made other) fix
  apply not_fits_iff.2
  rcases not_fits_iff.1 skipped with none | ⟨first, rest, shape, early⟩
  · rw [none, List.filter_nil] at left
    exact .inl left
  · have unmade : first ∉ made := (mem_pending.1 (shape ▸ List.mem_cons_self)).2
    -- the other fix makes nothing before the point that is reached
    have absent : first ∉ grown made other := by
      intro member
      rcases mem_or_behind_of_mem_grown orderly member with known | behind
      · exact unmade known
      · omega
    have passed := reachedBy_le_grown orderly made
    rw [shape, List.filter_cons_of_pos (by simpa using absent)] at left
    exact .inr ⟨first, _, left, by omega⟩

variable {fixes : List Fix} (orderly : ∀ other ∈ fixes, other.IsOrderly)

include orderly

theorem not_fits_selected (skipped : fix.fits made = false) :
    fix.fits (selected made fixes) = false := by
  induction fixes generalizing made with
  | nil => exact skipped
  | cons first rest ih =>
      exact ih (fun other member => orderly other (List.mem_cons_of_mem _ member))
        (not_fits_grown (orderly first List.mem_cons_self) skipped)

theorem not_fits_selected_of_mem (made : List Edit) (member : fix ∈ fixes) :
    fix.fits (selected made fixes) = false := by
  induction fixes generalizing made with
  | nil => simp at member
  | cons first rest ih =>
      have later : ∀ other ∈ rest, other.IsOrderly := fun other among =>
        orderly other (List.mem_cons_of_mem _ among)
      rw [selected, List.foldl_cons]
      rcases List.mem_cons.1 member with rfl | tail
      · exact not_fits_selected later (not_fits_grown_self made fix)
      · exact ih later (grown made first) tail

end Tried

theorem foldlM_fix_repeated {source : String} {front back : List Fix} {fix : Fix}
    (fits : ∀ other ∈ front, FixFits source other) (member : fix ∈ front) :
    (front ++ fix :: back).foldlM (Splice.fix source) {} =
      (front ++ back).foldlM (Splice.fix source) {} := by
  obtain ⟨last, run, stands, -⟩ := (stands_nothing source).fixes
    (fun other among => (fits other among).bounded)
    (takenApart_of_isChain [] fun other among => (fits other among).apart)
  have skipped := not_fits_selected_of_mem (fun other among => (fits other among).toIsOrderly) []
    member
  rw [List.foldlM_append, List.foldlM_append, run]
  change (fix :: back).foldlM (Splice.fix source) last = back.foldlM (Splice.fix source) last
  rw [List.foldlM_cons, stands.fix_of_not_fits skipped]
  rfl

theorem applicableFixes_repeated (original : Diagnostic) (before between after : List Diagnostic)
    (required : Applicability) :
    applicableFixes (before ++ original :: (between ++ original :: after)) required =
        applicableFixes (before ++ original :: (between ++ after)) required ∨
      ∃ front fix back, fix ∈ front ∧
        applicableFixes (before ++ original :: (between ++ original :: after)) required =
          front ++ fix :: back ∧
        applicableFixes (before ++ original :: (between ++ after)) required = front ++ back := by
  simp only [applicableFixes_eq, askedFixes_append, askedFixes_cons]
  cases original.fix.filter (·.applies required) with
  | none => exact .inl rfl
  | some fix =>
      obtain ⟨front, back, without, whole, ahead⟩ := exists_mergeSort_insert
        (numbered_trans Fix.start) (numbered_total Fix.start) fix
        (askedFixes before required ++ fix :: askedFixes between required)
        (askedFixes after required)
      refine .inr ⟨front, fix, back, ahead fix (by simp) (by simp), ?_, ?_⟩
      · rw [← whole]
        simp
      · rw [← without]
        simp

theorem applyFixes_edit {front replaced back : String} {diagnostic : Diagnostic} {edit : Edit}
    {level required : Applicability} (asked : diagnostic.fix = some (Fix.ofEdit level edit))
    (applies : required.rank ≤ level.rank) (start : Offset.endOf front = edit.span.start)
    (stop : edit.span.start + Offset.endOf replaced = edit.span.stop) :
    applyFixes (front ++ replaced ++ back) [diagnostic] required =
      .ok ⟨front ++ edit.inserted ++ back, 1⟩ := by
  have fixes : applicableFixes [diagnostic] required = [Fix.ofEdit level edit] := by
    simp [applicableFixes, asked, Fix.applies, Fix.ofEdit, applies]
  obtain ⟨all, both⟩ := @selected_ofEdit level [] [edit] (by simp) (by simp)
    fun _ _ => Nat.zero_le _
  rw [List.map_singleton] at all both
  rw [endOf_eq] at start stop
  have bounded : IsBoundary (front ++ replaced ++ back) edit.span.start ∧
      IsBoundary (front ++ replaced ++ back) edit.span.stop :=
    ⟨⟨front.toList, replaced.toList ++ back.toList, by simp, start⟩,
      ⟨front.toList ++ replaced.toList, back.toList, by simp, by
        rw [byteLength_append, start, stop]⟩⟩
  obtain ⟨code, applied, spliced⟩ := @applyFixes_eq_selected (front ++ replaced ++ back)
    [diagnostic] required (by
      rw [fixes]
      simpa using FixFits.ofEdit level bounded)
  rw [fixes, both] at applied
  rw [fixes, all, List.nil_append] at spliced
  have expected : Spliced 0 (front ++ replaced ++ back).toList [edit]
      (front ++ edit.inserted ++ back).toList := by
    simp only [String.toList_append]
    rw [← Nat.zero_add (byteLength front.toList)] at start
    exact .edit start stop (.done _ _)
  rw [applied, String.toList_inj.1 (spliced.unique expected)]
  rfl

theorem applyFixes_eq_of_repeated {source : String} {original : Diagnostic}
    {before between after : List Diagnostic} {required : Applicability}
    (fits : ∀ fix ∈ applicableFixes (before ++ original :: (between ++ after)) required,
      FixFits source fix) :
    applyFixes source (before ++ original :: (between ++ original :: after)) required =
      applyFixes source (before ++ original :: (between ++ after)) required := by
  rcases applicableFixes_repeated original before between after required with
    same | ⟨front, fix, back, member, whole, without⟩
  · rw [applyFixes, applyFixes, same]
  · rw [without] at fits
    have skipped := @foldlM_fix_repeated source front back fix
      (fun other among => fits other (List.mem_append_left _ among)) member
    rw [applyFixes, applyFixes, whole, without, skipped]

/-- A copy of a diagnostic that comes anywhere behind it changes neither the code nor the count. In
particular what is asked for twice, such as an insertion, where nothing is replaced, is made once. -/
theorem applyFixes_repeated {source : String} {original : Diagnostic}
    {before between after : List Diagnostic}
    (fits : ∀ fix ∈ (before ++ original :: (between ++ after)).filterMap (·.fix),
      FixFits source fix) (required : Applicability) :
    (∃ fixed, applyFixes source (before ++ original :: (between ++ after)) required = .ok fixed ∧
      applyFixes source (before ++ original :: (between ++ original :: after)) required =
        .ok fixed) ∧
    ∀ (front replaced back : String) (edit : Edit) (level : Applicability),
      source = front ++ replaced ++ back → Offset.endOf front = edit.span.start →
      edit.span.start + Offset.endOf replaced = edit.span.stop →
      original.fix = some (Fix.ofEdit level edit) → required.rank ≤ level.rank →
      applyFixes source [original, original] required =
        .ok ⟨front ++ edit.inserted ++ back, 1⟩ := by
  have applicable : ∀ fix ∈ applicableFixes (before ++ original :: (between ++ after)) required,
      FixFits source fix := fun fix member => fits fix (mem_applicableFixes.1 member).1
  constructor
  · obtain ⟨code, applied, -⟩ := applyFixes_eq_selected applicable
    exact ⟨_, applied, (applyFixes_eq_of_repeated applicable).trans applied⟩
  · intro front replaced back edit level shape start stop asked applies
    have alone : ∀ fix ∈ applicableFixes ([] ++ original :: ([] ++ [])) required,
        FixFits source fix := by
      intro fix member
      apply fits
      rw [List.mem_filterMap]
      exact ⟨original, by simp, by simpa using (mem_applicableFixes.1 member).1⟩
    calc applyFixes source [original, original] required
        = applyFixes source [original] required := applyFixes_eq_of_repeated alone
      _ = .ok ⟨front ++ edit.inserted ++ back, 1⟩ := by
        rw [shape]
        exact applyFixes_edit asked applies start stop

def insertionDiagnostic : Diagnostic :=
  askFor .safe (.writing 1 0 "ñ")

/-- Among fixes that pass over its place the insertion is skipped both times, alone it is made. -/
theorem applyFixes_repeated_insertionDiagnostic :
    (∀ fix ∈ (sharedDiagnostics ++ insertionDiagnostic :: ([] ++ [])).filterMap (·.fix),
      FixFits "aébcdef" fix) ∧
    (∃ fixed,
      applyFixes "aébcdef" (sharedDiagnostics ++ insertionDiagnostic :: ([] ++ [])) .optIn =
        .ok fixed ∧
      applyFixes "aébcdef"
        (sharedDiagnostics ++ insertionDiagnostic :: ([] ++ insertionDiagnostic :: [])) .optIn =
        .ok fixed) ∧
    applyFixes "aébcdef" [insertionDiagnostic, insertionDiagnostic] .optIn =
      .ok ⟨"a" ++ "ñ" ++ "ébcdef", 1⟩ := by
  have fits : ∀ fix ∈ (sharedDiagnostics ++ insertionDiagnostic :: ([] ++ [])).filterMap (·.fix),
      FixFits "aébcdef" fix := by decide
  exact ⟨fits, (applyFixes_repeated fits .optIn).1,
    (applyFixes_repeated fits .optIn).2 "a" "" "ébcdef" (.writing 1 0 "ñ")
      .safe (by decide) (by decide) (by decide) rfl (by decide)⟩

end NameLint
