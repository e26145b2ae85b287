import NameLint.Proofs.Edit.Apply
import NameLint.Proofs.Lint.Report

/-!
# Fixing what the linter reports

The reports of a well-formed tree are renames of names that lie apart and in order, so every one of
them that is handed to the splice is made. Renames have to be asked for; a request for safe fixes
makes none.
-/

namespace NameLint.Naming

open NameLint.Text

set_option autoImplicit false

/-- The second text is the first one, which starts at `position`, with the name at each span in
camel case. -/
inductive Renamed : Nat → List Char → List Span → List Char → Prop
  | done (position : Nat) (rest : List Char) : Renamed position rest [] rest
  | name {position : Nat} {kept rest after : List Char} {name : String} {span : Span}
      {spans : List Span} (start : position + byteLength kept = span.start)
      (stop : span.start + byteLength name.toList = span.stop)
      (later : Renamed span.stop rest spans after) :
      Renamed position (kept ++ name.toList ++ rest) (span :: spans)
        (kept ++ (camelCase name).toList ++ after)

def editsOf (diagnostics : List Diagnostic) : List Edit :=
  (diagnostics.filterMap (·.fix)).flatMap (·.edits)

def IsRename (source : String) (edit : Edit) : Prop :=
  ∃ name, edit.span.text source = .ok name ∧ edit.content = some (camelCase name)

section Edits

variable {source : String} {tree : Tree} {mode : PropertiesMode} {diagnostics : List Diagnostic}

theorem exists_edit_of_mem_reports {diagnostic : Diagnostic}
    (member : diagnostic ∈ reports mode source tree) :
    ∃ edit, diagnostic.fix = some (Fix.ofEdit .optIn edit) ∧ edit.span = diagnostic.span ∧
      IsRename source edit := by
  obtain ⟨place, -, -, classified⟩ := mem_reports_iff.1 member
  obtain ⟨name, _, text, -, -, -, renames⟩ := exists_of_classify classified
  obtain ⟨edit, fix, span, content⟩ := renames.fix_eq
  refine ⟨edit, fix, span.trans renames.span_eq.symm, name, ?_, content⟩
  rw [span]
  exact text

theorem fixes_eq (single : ∀ diagnostic ∈ diagnostics, ∃ edit,
      diagnostic.fix = some (Fix.ofEdit .optIn edit) ∧ edit.span = diagnostic.span) :
    diagnostics.filterMap (·.fix) = (editsOf diagnostics).map (Fix.ofEdit .optIn) ∧
      (editsOf diagnostics).map (·.span) = diagnostics.map (·.span) := by
  induction diagnostics with
  | nil => exact ⟨rfl, rfl⟩
  | cons diagnostic rest ih =>
      obtain ⟨edit, fix, span⟩ := single diagnostic List.mem_cons_self
      obtain ⟨fixes, spans⟩ := ih fun other member => single other (List.mem_cons_of_mem _ member)
      have first : editsOf (diagnostic :: rest) = edit :: editsOf rest := by
        simp [editsOf, fix, Fix.ofEdit]
      rw [first, List.filterMap_cons_some fix, fixes, List.map_cons, List.map_cons, List.map_cons,
        spans, span]
      exact ⟨rfl, rfl⟩

variable (chosen : diagnostics.Sublist (reports mode source tree))

include chosen

theorem fixes_of_chosen :
    diagnostics.filterMap (·.fix) = (editsOf diagnostics).map (Fix.ofEdit .optIn) ∧
      (editsOf diagnostics).map (·.span) = diagnostics.map (·.span) := by
  apply fixes_eq
  intro diagnostic member
  obtain ⟨edit, fix, span, -⟩ := exists_edit_of_mem_reports (chosen.subset member)
  exact ⟨edit, fix, span⟩

theorem exists_of_mem_editsOf {edit : Edit} (member : edit ∈ editsOf diagnostics) :
    ∃ diagnostic ∈ diagnostics, edit.span = diagnostic.span ∧ IsRename source edit := by
  obtain ⟨fix, wanted, own⟩ := List.mem_flatMap.1 member
  obtain ⟨diagnostic, present, asks⟩ := List.mem_filterMap.1 wanted
  obtain ⟨edit', fix', span, rename⟩ := exists_edit_of_mem_reports (chosen.subset present)
  rw [asks] at fix'
  cases fix'
  have same := List.mem_singleton.1 own
  subst same
  exact ⟨diagnostic, present, span, rename⟩

theorem editsOf_filled {edit : Edit} (member : edit ∈ editsOf diagnostics) :
    edit.span.start < edit.span.stop := by
  obtain ⟨diagnostic, present, span, -⟩ := exists_of_mem_editsOf chosen member
  rw [span]
  exact start_lt_stop_of_mem_reports (chosen.subset present)

theorem applyFixes_safe : applyFixes source diagnostics .safe = .ok ⟨source, 0⟩ := by
  have applicable : (diagnostics.filterMap (·.fix)).filter (·.applies .safe) =
      List.map (Fix.ofEdit .safe) [] := by
    rw [(fixes_of_chosen chosen).1, List.map_nil, List.filter_eq_nil_iff]
    intro fix member
    obtain ⟨edit, -, rfl⟩ := List.mem_map.1 member
    exact Bool.false_ne_true
  obtain ⟨code, applied, spliced⟩ :
      ∃ code, applyFixes source diagnostics .safe = .ok ⟨code, _⟩ ∧ _ :=
    applyFixes_of_ordered applicable (by simp) (by simp) (by simp)
  rw [applied, String.toList_inj.1 spliced.eq_of_nil]
  rfl

variable (formed : WellFormed source tree)

include formed

theorem editsOf_bounded {edit : Edit} (member : edit ∈ editsOf diagnostics) :
    IsBoundary source edit.span.start ∧ IsBoundary source edit.span.stop := by
  obtain ⟨diagnostic, present, span, -⟩ := exists_of_mem_editsOf chosen member
  rw [span]
  exact boundary_of_mem_reports formed (chosen.subset present)

theorem editsOf_ordered (apart : NamesApart tree) :
    (editsOf diagnostics).Pairwise fun first second => first.span.stop ≤ second.span.start := by
  have spans := (fixes_of_chosen chosen).2
  have ordered := (reports_ordered formed apart mode).sublist chosen
  rw [← List.pairwise_map (f := fun diagnostic : Diagnostic => diagnostic.span)
    (R := fun first second => first.stop ≤ second.start), ← spans, List.pairwise_map] at ordered
  exact ordered

/-- Any reports can be fixed together, and then all of them are. -/
theorem applyFixes_chosen (apart : NamesApart tree) :
    ∃ code, applyFixes source diagnostics .optIn = .ok ⟨code, diagnostics.length⟩ ∧
      Spliced 0 source.toList (editsOf diagnostics) code.toList := by
  obtain ⟨fixes, spans⟩ := fixes_of_chosen chosen
  have applicable : (diagnostics.filterMap (·.fix)).filter (·.applies .optIn) =
      (editsOf diagnostics).map (Fix.ofEdit .optIn) := by
    rw [fixes, List.filter_eq_self]
    intro fix member
    obtain ⟨edit, -, rfl⟩ := List.mem_map.1 member
    rfl
  have count : (editsOf diagnostics).length = diagnostics.length := by
    simpa using congrArg List.length spans
  rw [← count]
  exact applyFixes_of_ordered applicable (fun edit => editsOf_bounded chosen formed)
    (fun edit => editsOf_filled chosen) (editsOf_ordered chosen formed apart)

end Edits

theorem renamed_of_spliced {source : String} {position : Nat} {before text after : List Char}
    {edits : List Edit} (renames : ∀ edit ∈ edits, IsRename source edit)
    (spliced : Spliced position text edits after) (shape : source.toList = before ++ text)
    (length : byteLength before = position) :
    Renamed position text (edits.map (·.span)) after := by
  induction spliced generalizing before with
  | done position rest => exact .done position rest
  | @edit position kept removed rest after edit edits start stop later ih =>
      obtain ⟨name, own, content⟩ := renames edit List.mem_cons_self
      have shape' : source.toList = before ++ kept ++ removed ++ rest := by
        simpa only [List.append_assoc] using shape
      have reached : byteLength (before ++ kept) = edit.span.start := by
        rw [byteLength_append, length, start]
      have same := Span.text_of_append shape' reached stop
      rw [own, Except.ok.injEq] at same
      subst same
      have inserted : edit.inserted = camelCase (String.ofList removed) := by
        rw [Edit.inserted, content]
        rfl
      have later' := ih (fun other member => renames other (List.mem_cons_of_mem _ member)) shape'
        (by rw [byteLength_append, reached, stop])
      have named := @Renamed.name _ kept rest after (String.ofList removed) edit.span _ start
        (by rwa [String.toList_ofList]) later'
      rw [String.toList_ofList] at named
      rw [inserted]
      exact named

/-- Fixing all that the linter reports of a file puts exactly the reported names in camel case,
counts each of them, and without the user's consent changes nothing. -/
theorem applyFixes_check {source : String} {tree : Tree} (formed : WellFormed source tree)
    (apart : NamesApart tree) (mode : PropertiesMode) :
    ∃ found code, (camelCaseLinter mode).check source tree = .ok found ∧
      applyFixes source found .optIn = .ok ⟨code, found.length⟩ ∧
      Renamed 0 source.toList (found.map (·.span)) code.toList ∧
      applyFixes source found .safe = .ok ⟨source, 0⟩ := by
  have all := List.Sublist.refl (reports mode source tree)
  obtain ⟨code, applied, spliced⟩ := applyFixes_chosen all formed apart
  refine ⟨_, code, check_eq formed apart mode, applied, ?_, applyFixes_safe all⟩
  rw [← (fixes_of_chosen all).2]
  apply renamed_of_spliced _ spliced (List.nil_append source.toList).symm rfl
  intro edit member
  obtain ⟨_, _, _, rename⟩ := exists_of_mem_editsOf all member
  exact rename

theorem applyFixes_importTree :
    WellFormed importSource importTree ∧ NamesApart importTree ∧
      ∃ found code, (camelCaseLinter .never).check importSource importTree = .ok found ∧
        found.length = 1 ∧ applyFixes importSource found .optIn = .ok ⟨code, 1⟩ ∧
        Renamed 0 importSource.toList (found.map (·.span)) code.toList ∧
        applyFixes importSource found .safe = .ok ⟨importSource, 0⟩ := by
  have formed : WellFormed importSource importTree := by decide
  have apart : NamesApart importTree := by decide
  obtain ⟨found, code, checked, applied, renamed, safe⟩ := applyFixes_check formed apart .never
  have one : found.length = 1 := by
    rw [check_eq formed apart, Except.ok.injEq] at checked
    rw [← checked]
    decide
  rw [one] at applied
  exact ⟨formed, apart, found, code, checked, one, applied, renamed, safe⟩

end NameLint.Naming
