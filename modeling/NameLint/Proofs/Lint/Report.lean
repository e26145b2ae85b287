import NameLint.Lint.Linter
import NameLint.Proofs.Naming.Classify
import NameLint.Proofs.Tree.Walk

/-!
# What the linter reports

The linter with the camel case rule reports the answers of the classifier at the names of the tree,
in pre-order. The marks suppress nothing in one walk, because no place is visited twice, and the
sort moves nothing, because the names of a well-formed tree lie in pre-order.
-/

namespace NameLint

open NameLint.Text NameLint.Naming

set_option autoImplicit false

def Rule.reportAll (rule : Rule) (source : String) :
    List Place → Reported → Except Fault (List Diagnostic)
  | [], _ => .ok []
  | place :: rest, reported => do
      let (found, reported) ← rule.check source place reported
      return found ++ (← rule.reportAll source rest reported)

namespace Linter

theorem encounters_single (rule : Rule) (places : List Place) :
    (Linter.mk [rule]).encounters places = (places.filter rule.sees).map (·, rule) := by
  induction places with
  | nil => rfl
  | cons place rest ih =>
      simp only [encounters, List.flatMap_cons] at ih ⊢
      rw [ih]
      by_cases seen : rule.sees place <;> simp [seen]

theorem foldlM_encounter (rule : Rule) (source : String) (places : List Place)
    (findings : Findings) {found : List Diagnostic}
    (reports : rule.reportAll source places findings.reported = .ok found) :
    ∃ last, (places.map (·, rule)).foldlM (encounter source) findings = .ok last ∧
      last.diagnostics.toList = findings.diagnostics.toList ++ found := by
  induction places generalizing findings found with
  | nil =>
      cases reports
      exact ⟨findings, rfl, by simp⟩
  | cons place rest ih =>
      rw [Rule.reportAll] at reports
      obtain ⟨⟨own, reported⟩, checked, remainder⟩ := exists_of_bind_eq_ok reports
      obtain ⟨others, later, same⟩ := exists_of_bind_eq_ok remainder
      cases same
      obtain ⟨last, run, collected⟩ :=
        ih { diagnostics := findings.diagnostics ++ own, reported } later
      refine ⟨last, ?_, ?_⟩
      · rw [List.map_cons, List.foldlM_cons, encounter, checked]
        exact run
      · rw [collected]
        simp

end Linter

namespace Naming

def reports (mode : PropertiesMode) (source : String) (tree : Tree) : List Diagnostic :=
  ((Place.root tree).preorder.filter isName).filterMap (verdict mode source)

def camelCaseLinter (mode : PropertiesMode) : Linter :=
  ⟨[camelCaseRule mode]⟩

def Unmarked (reported : Reported) (places : List Place) : Prop :=
  ∀ mark ∈ reported.marks, ∀ place ∈ places, mark.address ≠ place.address

/-- One check answers as the classifier does, and marks at most the place that it was shown. -/
theorem checkName_eq {mode : PropertiesMode} {source : String} {place : Place}
    {reported : Reported} {answer : Option Diagnostic}
    (classified : classify mode source place = .ok answer)
    (unmarked : Unmarked reported [place]) :
    ∃ after, checkName mode source place reported =
        .ok (if isName place then answer.toList else [], after) ∧
      ∀ mark ∈ after.marks, mark ∈ reported.marks ∨ mark.address = place.address := by
  by_cases named : isName place
  · have listed : nameKinds.contains place.kind = true := named
    rw [checkName, if_pos listed, classified, if_pos named]
    cases answer with
    | none => exact ⟨reported, rfl, fun mark member => .inl member⟩
    | some diagnostic =>
        have free : reported.has ruleName place = false := by
          rw [Reported.has, List.contains_eq_mem, decide_eq_false_iff_not]
          intro member
          exact unmarked _ member place (by simp) rfl
        refine ⟨⟨⟨ruleName, place.address⟩ :: reported.marks⟩, ?_, ?_⟩
        · simp only [bind, Except.bind, Reported.mark, free]
          rfl
        · intro mark member
          rcases List.mem_cons.1 member with rfl | earlier
          · exact .inr rfl
          · exact .inl earlier
  · have unlisted : ¬ nameKinds.contains place.kind = true := named
    rw [checkName, if_neg unlisted, if_neg named]
    exact ⟨reported, rfl, fun mark member => .inl member⟩

theorem reportAll_eq {mode : PropertiesMode} {source : String} {places : List Place}
    {reported : Reported}
    (classified : ∀ place ∈ places,
      classify mode source place = .ok (verdict mode source place))
    (distinct : places.Pairwise fun first second => first.address ≠ second.address)
    (unmarked : Unmarked reported places) :
    (camelCaseRule mode).reportAll source places reported =
      .ok ((places.filter isName).filterMap (verdict mode source)) := by
  induction places generalizing reported with
  | nil => rfl
  | cons place rest ih =>
      obtain ⟨heads, tails⟩ := List.pairwise_cons.1 distinct
      have unmarkedHere : Unmarked reported [place] := by
        intro mark member other same
        rw [List.mem_singleton.1 same]
        exact unmarked mark member place List.mem_cons_self
      obtain ⟨after, checked, marks⟩ :=
        checkName_eq (classified place List.mem_cons_self) unmarkedHere
      -- the check marks at most this place, and the later ones have other addresses
      have unmarkedAfter : Unmarked after rest := by
        intro mark member other otherIn
        rcases marks mark member with earlier | own
        · exact unmarked mark earlier other (List.mem_cons_of_mem _ otherIn)
        · rw [own]
          exact heads other otherIn
      have later := ih (fun other otherIn => classified other (List.mem_cons_of_mem _ otherIn))
        tails unmarkedAfter
      have first : (camelCaseRule mode).check source place reported = _ := checked
      rw [Rule.reportAll, first]
      simp only [bind, Except.bind, later]
      by_cases named : isName place
      · cases found : verdict mode source place <;> simp [named, found, pure, Except.pure]
      · simp [named, pure, Except.pure]

theorem mem_reports_iff {mode : PropertiesMode} {source : String} {tree : Tree}
    {diagnostic : Diagnostic} : diagnostic ∈ reports mode source tree ↔
      ∃ place ∈ (Place.root tree).preorder, isName place = true ∧
        classify mode source place = .ok (some diagnostic) := by
  simp only [reports, List.mem_filterMap, List.mem_filter, verdict_eq_some_iff, and_assoc]

theorem start_lt_stop_of_mem_reports {mode : PropertiesMode} {source : String} {tree : Tree}
    {diagnostic : Diagnostic} (member : diagnostic ∈ reports mode source tree) :
    diagnostic.span.start < diagnostic.span.stop := by
  obtain ⟨place, -, -, classified⟩ := mem_reports_iff.1 member
  obtain ⟨name, -, text, -, underscored, -, renames⟩ := exists_of_classify classified
  obtain ⟨before, after, -, -, stop⟩ := cut_eq_ok_iff.1 text
  have filled : byteLength name.toList ≠ 0 := by
    intro none
    apply core_ne_nil underscored
    have shape := toList_splitMarkers name
    rw [byteLength_eq_zero.1 none] at shape
    exact (List.append_eq_nil_iff.1 (List.append_eq_nil_iff.1 shape.symm).1).2
  rw [renames.span_eq]
  omega

section Tree

variable {source : String} {tree : Tree} (formed : WellFormed source tree)

include formed

theorem boundary_of_mem_reports {mode : PropertiesMode} {diagnostic : Diagnostic}
    (member : diagnostic ∈ reports mode source tree) :
    IsBoundary source diagnostic.span.start ∧ IsBoundary source diagnostic.span.stop := by
  obtain ⟨place, within, -, classified⟩ := mem_reports_iff.1 member
  obtain ⟨_, _, -, -, -, -, renames⟩ := exists_of_classify classified
  rw [renames.span_eq]
  exact formed.boundary place within

theorem reportAll_walk (mode : PropertiesMode) :
    (camelCaseRule mode).reportAll source (Place.root tree).walk {} =
      .ok (reports mode source tree) := by
  rw [Place.walk_eq_preorder]
  exact reportAll_eq (fun place within => classify_eq_verdict formed within)
    (Place.preorder_address_distinct _) (by simp [Unmarked])

theorem report_eq (mode : PropertiesMode) :
    (camelCaseLinter mode).report source tree = .ok (reports mode source tree) := by
  have sees : (camelCaseRule mode).sees = isName := by
    funext place
    rfl
  have names : (camelCaseRule mode).reportAll source
      ((Place.root tree).preorder.filter isName) {} = .ok (reports mode source tree) := by
    rw [reportAll_eq, List.filter_filter, reports]
    · simp only [Bool.and_self]
    · exact fun place member => classify_eq_verdict formed (List.mem_filter.1 member).1
    · exact (Place.preorder_address_distinct _).filter _
    · simp [Unmarked]
  obtain ⟨last, run, collected⟩ := Linter.foldlM_encounter _ _ _ {} names
  rw [Linter.report, camelCaseLinter, Linter.encounters_single, Place.walk_eq_preorder, sees]
  simp only [run, bind, Except.bind, collected]
  rfl

theorem check_eq_mergeSort (mode : PropertiesMode) :
    (camelCaseLinter mode).check source tree = .ok
      ((reports mode source tree).mergeSort fun left right => left.span.precedes right.span) := by
  rw [Linter.check, report_eq formed mode]
  rfl

variable (apart : NamesApart tree)

include apart

theorem reports_ordered (mode : PropertiesMode) :
    (reports mode source tree).Pairwise fun first second =>
      first.span.stop ≤ second.span.start := by
  rw [reports, List.pairwise_filterMap]
  apply (names_ordered formed apart).imp_of_mem
  intro first second _ _ ordered one oneFound other otherFound
  obtain ⟨_, _, _, _, _, _, oneRenames⟩ := exists_of_classify (verdict_eq_some_iff.1 oneFound)
  obtain ⟨_, _, _, _, _, _, otherRenames⟩ := exists_of_classify (verdict_eq_some_iff.1 otherFound)
  rw [oneRenames.span_eq, otherRenames.span_eq]
  exact ordered

theorem check_eq (mode : PropertiesMode) :
    (camelCaseLinter mode).check source tree = .ok (reports mode source tree) := by
  have sorted : (reports mode source tree).Pairwise fun first second =>
      first.span.precedes second.span = true := by
    apply (reports_ordered formed apart mode).imp
    intro first second ordered
    have firstSpan := first.span.start_le_stop
    have secondSpan := second.span.start_le_stop
    rw [Span.precedes_iff]
    omega
  rw [check_eq_mergeSort formed mode, List.mergeSort_of_pairwise sorted]

end Tree

/-- Nothing is lost, repeated or moved: the linter reports the answer at each name once, at spans
that ascend and do not overlap, just as the rule alone does when it is shown every place. -/
theorem check_reports_every_answer_once {source : String} {tree : Tree}
    (formed : WellFormed source tree) (apart : NamesApart tree) (mode : PropertiesMode) :
    (∀ place ∈ (Place.root tree).preorder,
      classify mode source place = .ok (verdict mode source place)) ∧
    (camelCaseLinter mode).check source tree = .ok (reports mode source tree) ∧
    ((reports mode source tree).Pairwise fun first second =>
      first.span.start < second.span.start ∧ first.span.stop ≤ second.span.start) ∧
    (camelCaseRule mode).reportAll source (Place.root tree).walk {} =
      .ok (reports mode source tree) := by
  refine ⟨fun place within => classify_eq_verdict formed within, check_eq formed apart mode, ?_,
    reportAll_walk formed mode⟩
  apply (reports_ordered formed apart mode).imp_of_mem
  intro first second firstIn _ ordered
  have filled := start_lt_stop_of_mem_reports firstIn
  exact ⟨by omega, ordered⟩

theorem check_importTree :
    WellFormed importSource importTree ∧ NamesApart importTree ∧
      (reports .always importSource importTree).length = 1 ∧
      (camelCaseLinter .always).check importSource importTree =
        .ok (reports .always importSource importTree) ∧
      (camelCaseRule .always).reportAll importSource (Place.root importTree).walk {} =
        .ok (reports .always importSource importTree) := by
  have formed : WellFormed importSource importTree := by decide
  have apart : NamesApart importTree := by decide
  obtain ⟨-, checked, -, alone⟩ := check_reports_every_answer_once formed apart .always
  exact ⟨formed, apart, by decide, checked, alone⟩

end Naming

end NameLint
