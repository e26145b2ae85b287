import NameLint.Lint.Registry
import NameLint.Proofs.Edit.Apply
import NameLint.Proofs.Lint.PropertiesMode

/-!
# What can be done with a finding

Whatever tree a parser makes of a source, the linter reports a name only where the rule found it, and
a name that was found lies between characters. So the fixes of a report can always be applied. Each
of them takes underscores away, hence the text is another one as soon as one fix is made.
-/

namespace NameLint

open NameLint.Text NameLint.Naming

set_option autoImplicit false

section Origin

variable {linter : Linter} {source : String} {tree : Tree} {found : List Diagnostic}

def Linter.Finds (linter : Linter) (source : String) (diagnostic : Diagnostic) : Prop :=
  ∃ rule ∈ linter.rules, ∃ place before own after,
    rule.check source place before = .ok (own, after) ∧ diagnostic ∈ own

theorem Linter.finds_of_mem_check (checked : linter.check source tree = .ok found)
    {diagnostic : Diagnostic} (member : diagnostic ∈ found) : linter.Finds source diagnostic := by
  obtain ⟨reported, report, same⟩ := exists_of_bind_eq_ok checked
  cases same
  rw [List.mem_mergeSort] at member
  obtain ⟨last, run, same⟩ := exists_of_bind_eq_ok report
  cases same
  refine foldlM_keeps (fun findings : Findings => ∀ diagnostic ∈ findings.diagnostics.toList,
    linter.Finds source diagnostic) ?_ (by simp) run diagnostic member
  intro findings held met within next done other otherIn
  obtain ⟨⟨own, after⟩, shown, same⟩ := exists_of_bind_eq_ok done
  cases same
  simp only [Array.toList_appendList, List.mem_append] at otherIn
  rcases otherIn with earlier | new
  · exact held other earlier
  · obtain ⟨place, -, pairs⟩ := List.mem_flatMap.1 within
    obtain ⟨rule, listed, rfl⟩ := List.mem_map.1 pairs
    exact ⟨rule, (List.mem_filter.1 listed).1, place, _, own, after, shown, new⟩

end Origin

section CamelCase

variable {mode : PropertiesMode} {source : String} {diagnostic : Diagnostic}

theorem classify_of_mem_checkName {place : Place} {before after : Reported}
    {own : List Diagnostic} (checked : checkName mode source place before = .ok (own, after))
    (member : diagnostic ∈ own) : classify mode source place = .ok (some diagnostic) := by
  rw [checkName] at checked
  split at checked
  · obtain ⟨answer, classified, remainder⟩ := exists_of_bind_eq_ok checked
    cases answer with
    | none =>
        cases remainder
        simp at member
    | some reported =>
        simp only at remainder
        split at remainder
        · cases remainder
          rw [List.mem_singleton.1 member]
          exact classified
        · cases remainder
          simp at member
  · cases checked
    simp at member

/-- The diagnostic renames an underscored name that the source holds at its span. -/
def RenamesIn (source : String) (diagnostic : Diagnostic) : Prop :=
  ∃ name, diagnostic.span.text source = .ok name ∧ isUnderscored (splitMarkers name).core ∧
    Renames diagnostic name diagnostic.span

theorem renamesIn_of_mem_check {settings : Settings} {tree : Tree} {found : List Diagnostic}
    (checked : (Linter.ofSettings settings).check source tree = .ok found)
    (member : diagnostic ∈ found) : RenamesIn source diagnostic := by
  obtain ⟨rule, listed, place, before, own, after, shown, among⟩ :=
    Linter.finds_of_mem_check checked member
  have only : rule = camelCaseRule (Registry.propertiesMode (settings.options ruleName)) := by
    simp only [Linter.ofSettings, Registry.rules] at listed
    split at listed
    · exact List.mem_singleton.1 listed
    · simp at listed
  subst only
  have classified := classify_of_mem_checkName shown among
  obtain ⟨name, _, text, -, underscored, -, renames⟩ := exists_of_classify classified
  refine ⟨name, ?_, underscored, renames.violation_eq, rfl, ?_⟩
  · rw [renames.span_eq]
    exact text
  · rw [renames.span_eq]
    exact renames.fix_eq

theorem exists_check_of_wellFormed (settings : Settings) {tree : Tree}
    (formed : WellFormed source tree) :
    ∃ found, (Linter.ofSettings settings).check source tree = .ok found := by
  rw [Linter.ofSettings, Registry.rules]
  split
  · exact ⟨_, check_eq_mergeSort formed _⟩
  · have none : (Linter.mk []).encounters (Place.root tree).walk = [] :=
      List.flatMap_eq_nil_iff.2 fun _ _ => rfl
    exact ⟨[], by simp [Linter.check, Linter.report, none, bind, Except.bind, pure, Except.pure]⟩

theorem count_marker_camelCase {name : String} (underscored : isUnderscored (splitMarkers name).core) :
    (camelCase name).toList.count '_' < name.toList.count '_' := by
  have joined : (joinWords false (splitMarkers name).core.toList).count '_' = 0 :=
    List.count_eq_zero.2 (marker_not_mem_joinWords false _)
  have separated : 0 < (splitMarkers name).core.toList.count '_' := by
    rw [List.count_pos_iff]
    simp only [isUnderscored, Bool.and_eq_true, List.any_eq_true] at underscored
    obtain ⟨⟨c, member, marker⟩, -⟩ := underscored
    exact isMarker_iff.1 marker ▸ member
  rw [toList_camelCase, toList_splitMarkers name]
  simp only [List.count_append]
  omega

def RewritesName (source : String) (edit : Edit) : Prop :=
  ∃ name, edit.span.text source = .ok name ∧ isUnderscored (splitMarkers name).core ∧
    edit.content = some (camelCase name)

/-- Renames take underscores away, one at least for each. -/
theorem count_marker_of_spliced {position : Nat} {before text after : List Char}
    {edits : List Edit} (names : ∀ edit ∈ edits, RewritesName source edit)
    (spliced : Spliced position text edits after) (shape : source.toList = before ++ text)
    (length : byteLength before = position) :
    after.count '_' + edits.length ≤ text.count '_' := by
  induction spliced generalizing before with
  | done position rest => exact Nat.le_refl _
  | @edit position kept removed rest after edit edits start stop later ih =>
      obtain ⟨name, own, underscored, content⟩ := names edit List.mem_cons_self
      have shape' : source.toList = before ++ kept ++ removed ++ rest := by
        simpa only [List.append_assoc] using shape
      have reached : byteLength (before ++ kept) = edit.span.start := by
        rw [byteLength_append, length, start]
      have same := Span.text_of_append shape' reached stop
      rw [own, Except.ok.injEq] at same
      subst same
      have inserted : edit.inserted = camelCase (String.ofList removed) := by
        rw [Edit.inserted, content]
        rfl
      have fewer := count_marker_camelCase underscored
      have rests := ih (fun other member => names other (List.mem_cons_of_mem _ member)) shape'
        (by rw [byteLength_append, reached, stop])
      rw [inserted]
      simp only [List.count_append, List.length_cons, String.toList_ofList] at fewer ⊢
      omega

variable {found : List Diagnostic} (renames : ∀ diagnostic ∈ found, RenamesIn source diagnostic)

include renames

theorem boundary_of_renamesIn {diagnostic : Diagnostic} (member : diagnostic ∈ found) :
    IsBoundary source diagnostic.span.start ∧ IsBoundary source diagnostic.span.stop := by
  obtain ⟨name, text, -⟩ := renames diagnostic member
  exact Span.isBoundary_of_text text

theorem exists_edit_of_renamesIn {required : Applicability} {fix : Fix}
    (asked : fix ∈ applicableFixes found required) :
    ∃ edit, fix = Fix.ofEdit .optIn edit ∧ RewritesName source edit := by
  obtain ⟨diagnostic, member, asks⟩ := List.mem_filterMap.1 (mem_applicableFixes.1 asked).1
  obtain ⟨name, text, underscored, -, -, edit, own, span, content⟩ := renames diagnostic member
  rw [asks, Option.some.injEq] at own
  exact ⟨edit, own, name, span ▸ text, underscored, content⟩

theorem fixFits_of_renamesIn {required : Applicability} {fix : Fix}
    (asked : fix ∈ applicableFixes found required) : FixFits source fix := by
  obtain ⟨edit, rfl, name, text, -⟩ := exists_edit_of_renamesIn renames asked
  exact .ofEdit .optIn (Span.isBoundary_of_text text)

/-- The fixes of a report can be applied. They change the text just when one of them is made. -/
theorem exists_applyFixes_of_renamesIn (required : Applicability) :
    ∃ fixed, applyFixes source found required = .ok fixed ∧
      (0 < fixed.count ↔ fixed.code ≠ source) := by
  obtain ⟨code, applied, spliced⟩ :=
    applyFixes_eq_selected fun fix => @fixFits_of_renamesIn _ _ renames required fix
  refine ⟨_, applied, ?_⟩
  have brought := brought_taken [] (applicableFixes found required)
  have sublist := taken_sublist [] (applicableFixes found required)
  generalize selected [] (applicableFixes found required) = made at *
  have names : ∀ edit ∈ made, RewritesName source edit := by
    intro edit member
    rcases brought.exists_of_mem member with none | ⟨fix, among, own⟩
    · simp at none
    · obtain ⟨edit', rfl, names⟩ := exists_edit_of_renamesIn renames (sublist.subset among)
      rw [List.mem_singleton.1 own]
      exact names
  have fewer := count_marker_of_spliced names spliced (List.nil_append source.toList).symm rfl
  generalize taken [] (applicableFixes found required) = counted at *
  cases brought with
  | done => simpa using String.toList_inj.1 spliced.eq_of_nil
  | @fix _ _ fix rest present later =>
      have some : 0 < made.length :=
        List.length_pos_of_mem (later.subset (List.head_mem (by simpa using present)))
      refine iff_of_true (Nat.succ_pos _) fun (same : code = source) => ?_
      rw [same] at fewer
      omega

end CamelCase

end NameLint
