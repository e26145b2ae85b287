import NameLint.Command.Run
import NameLint.Proofs.Lint.PropertiesMode
import NameLint.Proofs.Lint.Renaming
import NameLint.Proofs.Report.Located
import NameLint.Proofs.Source.LocationOrder

/-!
# What the plain report foretells

The report looks at the level of a fix alone, and the splice also at what has been made before. For
reports of the camel case rule both come to the same numbers: each report has one fix, and none of
them is in the way of another. The lines name the places in their order, because locations are in
the order of the offsets.
-/

namespace NameLint.Plain

open NameLint.Command NameLint.Files NameLint.Naming NameLint.Source NameLint.Text

set_option autoImplicit false

/-- What the linter reports of a file that is left as it is. No name of its tree is inside another,
and its offsets are below the limit of offsets. -/
structure IsUnfixed (report : FileReport) : Prop where
  unfixed : report.fixed = 0
  checked : ∃ mode tree, WellFormed report.source tree ∧ NamesApart tree ∧
    (camelCaseLinter mode).check report.source tree = .ok report.diagnostics
  bounded : ∀ diagnostic ∈ report.diagnostics, diagnostic.span.stop < Offset.limit

def fixesMade (required : Applicability) : List FileReport → Except Fault Nat
  | [] => .ok 0
  | report :: rest => do
      let fixed ← applyFixes report.source report.diagnostics required
      return fixed.count + (← fixesMade required rest)

theorem level_cases (invocation : Invocation) :
    invocation.level = .optIn ∨ invocation.level = .safe := by
  rw [Invocation.level]
  split
  · exact .inl rfl
  · exact .inr rfl

section Fixes

variable {mode : PropertiesMode} {source : String} {tree : Tree} {required : Applicability}

theorem isFixable_of_mem_reports {diagnostic : Diagnostic}
    (member : diagnostic ∈ reports mode source tree) :
    isFixable .optIn diagnostic = true ∧ isFixable .safe diagnostic = false := by
  rcases exists_edit_of_mem_reports member with ⟨edit, fix, -⟩
  rw [isFixable, isFixable, fix]
  exact ⟨rfl, rfl⟩

theorem applyFixes_reports (mode : PropertiesMode) (formed : WellFormed source tree)
    (apart : NamesApart tree) (asked : required = .optIn ∨ required = .safe) :
    ∃ code, applyFixes source (reports mode source tree) required =
      .ok ⟨code, (reports mode source tree).countP (isFixable required)⟩ := by
  have all := List.Sublist.refl (reports mode source tree)
  rcases asked with rfl | rfl
  · have every : (reports mode source tree).countP (isFixable .optIn) =
        (reports mode source tree).length :=
      List.countP_eq_length.2 fun _ member => (isFixable_of_mem_reports member).1
    rcases applyFixes_chosen all formed apart with ⟨code, applied, -⟩
    rw [every]
    exact ⟨code, applied⟩
  · have none : (reports mode source tree).countP (isFixable .safe) = 0 := by
      rw [List.countP_eq_zero]
      intro diagnostic member
      rw [(isFixable_of_mem_reports member).2]
      exact Bool.false_ne_true
    rw [none]
    exact ⟨source, applyFixes_safe all⟩

theorem IsUnfixed.exists_reports {report : FileReport} (unfixed : IsUnfixed report) :
    ∃ mode tree, WellFormed report.source tree ∧ NamesApart tree ∧
      report.diagnostics = reports mode report.source tree := by
  rcases unfixed.checked with ⟨mode, tree, formed, apart, checked⟩
  rw [check_eq formed apart, Except.ok.injEq] at checked
  exact ⟨mode, tree, formed, apart, checked.symm⟩

end Fixes

section Counts

variable {required : Applicability} {reports : List FileReport}
  (unfixed : ∀ report ∈ reports, IsUnfixed report)

include unfixed

theorem fixesMade_eq (asked : required = .optIn ∨ required = .safe) : fixesMade required reports =
    .ok ((reports.flatMap (·.diagnostics)).countP (isFixable required)) := by
  induction reports with
  | nil => rfl
  | cons report rest ih =>
      rcases (unfixed report List.mem_cons_self).exists_reports with
        ⟨mode, tree, formed, apart, same⟩
      rcases applyFixes_reports mode formed apart asked with ⟨code, applied⟩
      have rests := ih fun other member => unfixed other (List.mem_cons_of_mem _ member)
      rw [fixesMade, same, applied, rests, List.flatMap_cons, List.countP_append, same]
      rfl

theorem isFixable_optIn {diagnostic : Diagnostic}
    (member : diagnostic ∈ reports.flatMap (·.diagnostics)) :
    isFixable .optIn diagnostic = true := by
  rcases List.mem_flatMap.1 member with ⟨report, listed, own⟩
  rcases (unfixed report listed).exists_reports with ⟨mode, tree, -, -, same⟩
  rw [same] at own
  exact (isFixable_of_mem_reports own).1

theorem countP_isFixable_optIn : (reports.flatMap (·.diagnostics)).countP (isFixable .optIn) =
    (reports.flatMap (·.diagnostics)).length := by
  rw [List.countP_eq_length]
  exact fun diagnostic member => isFixable_optIn unfixed member

theorem fixable_add_heldBack (required : Applicability) :
    (Summary.ofReports required reports).fixable + (Summary.ofReports required reports).heldBack =
      (Summary.ofReports required reports).remaining := by
  rw [Summary.ofReports]
  simp only
  rw [List.length_eq_countP_add_countP (isFixable required), Nat.add_left_cancel_iff]
  apply List.countP_congr
  intro diagnostic member
  rw [isHeldBack, isFixable_optIn unfixed member]
  simp

end Counts

section Marks

def isMarked (line : String) : Bool :=
  " [*]".toList.isSuffixOf line.toList

theorem getLast?_append {before behind : String} {c : Char}
    (last : behind.toList.getLast? = some c) : (before ++ behind).toList.getLast? = some c := by
  rw [String.toList_append, List.getLast?_append, last]
  rfl

theorem isMarked_append (before : String) : isMarked (before ++ " [*]") = true := by
  rw [isMarked, List.isSuffixOf_iff_suffix, String.toList_append]
  exact List.suffix_append _ _

theorem getLast?_of_isMarked {line : String} (marked : isMarked line) :
    line.toList.getLast? = some ']' := by
  rw [isMarked, List.isSuffixOf_iff_suffix] at marked
  rcases marked with ⟨before, shape⟩
  rw [← shape, List.getLast?_append]
  rfl

theorem not_isMarked {line : String} {c : Char} (last : line.toList.getLast? = some c)
    (other : c ≠ ']') : isMarked line = false := by
  rw [← Bool.not_eq_true]
  intro marked
  rw [getLast?_of_isMarked marked, Option.some.injEq] at last
  exact other last.symm

theorem getLast?_body {mode : PropertiesMode} {source : String} {tree : Tree}
    {diagnostic : Diagnostic} (member : diagnostic ∈ reports mode source tree) :
    diagnostic.violation.body.toList.getLast? = some '.' := by
  rcases mem_reports_iff.1 member with ⟨place, -, -, classified⟩
  rcases exists_of_classify classified with ⟨name, _, -, -, -, -, renames⟩
  rw [renames.violation_eq]
  exact getLast?_append rfl

/-- A line on a diagnostic ends with its mark, or with its sentence if it has none. -/
theorem line_ends {report : FileReport} (unfixed : IsUnfixed report)
    {found : Location × Diagnostic} (member : found.2 ∈ report.diagnostics)
    (required : Applicability) (path : String) :
    isMarked (line required path found) = isFixable required found.2 ∧
      (line required path found).toList.getLast? ≠ some '!' := by
  rcases unfixed.exists_reports with ⟨mode, tree, -, -, same⟩
  rw [same] at member
  rw [line]
  cases isFixable required found.2 with
  | true =>
      rw [if_pos rfl]
      have last : (" [*]" : String).toList.getLast? = some ']' := rfl
      refine ⟨isMarked_append _, ?_⟩
      rw [getLast?_append last]
      decide
  | false =>
      have last : (path ++ ":" ++ found.1.render ++ ": " ++ found.2.violation.body ++
          if false = true then " [*]" else "").toList.getLast? = some '.' := by
        rw [if_neg Bool.false_ne_true, String.append_empty]
        exact getLast?_append (getLast?_body member)
      refine ⟨not_isMarked last (by decide), ?_⟩
      rw [last]
      decide

theorem getLast?_summary {summary : Summary} {line : String} (member : line ∈ summary.lines) :
    line.toList.getLast? = some '.' ∨
      line = "All checks passed!" ∧ summary.remaining = 0 ∧ summary.fixed = 0 := by
  simp only [Summary.lines, List.mem_append] at member
  rcases member with first | second
  · split at first
    · simp at first
    · rw [List.mem_singleton.1 first]
      exact .inl (getLast?_append rfl)
  · split at second
    · next clean =>
        split at second
        · next unfixed => exact .inr ⟨List.mem_singleton.1 second, clean, unfixed⟩
        · simp at second
    · rw [List.mem_singleton.1 second]
      exact .inl (getLast?_append rfl)

end Marks

section Lines

variable {required : Applicability} {directory : Route} {report : FileReport}

/-- The lines on one file: one for each diagnostic, with the path and the location of the diagnostic
in front, and a mark on those that would be fixed. -/
structure Shows (required : Applicability) (directory : Route) (report : FileReport)
    (located : List (Location × Diagnostic)) (block : List String) : Prop where
  diagnostics_eq : located.map (·.2) = report.diagnostics
  locations : ∀ found ∈ located, (LineIndex.ofText report.source).location found.2.span.start
    report.source = .ok found.1
  block_eq : block = located.map fun found =>
    report.shownPath directory ++ ":" ++ toString found.1.line.number ++ ":" ++
      toString found.1.column.number ++ ": " ++ found.2.violation.body ++
      (if isFixable required found.2 then " [*]" else "")

/-- Such lines with the locations in strict order. -/
structure Lists (required : Applicability) (directory : Route) (report : FileReport)
    (located : List (Location × Diagnostic)) (block : List String) : Prop
    extends Shows required directory report located block where
  ordered : located.Pairwise fun found later => found.1.Before later.1

theorem line_eq (path : String) (found : Location × Diagnostic) : line required path found =
    path ++ ":" ++ toString found.1.line.number ++ ":" ++ toString found.1.column.number ++ ": " ++
      found.2.violation.body ++ (if isFixable required found.2 then " [*]" else "") := by
  simp only [line, Location.render, Ordinal.render, String.append_assoc]

theorem shows_of_located {located : List (Location × Diagnostic)}
    (found : report.located = .ok located) : Shows required directory report located
      (located.map (line required (report.shownPath directory))) := by
  rcases located_eq found with ⟨diagnostics, locations⟩
  exact ⟨diagnostics, locations, List.map_congr_left fun found _ => line_eq _ found⟩

theorem exists_shows_of_lines {reports : List FileReport} {printed : List String}
    (done : lines required directory reports = .ok printed) :
    ∃ blocks, printed = blocks.flatten ++ (Summary.ofReports required reports).lines ∧
      List.Forall₂ (fun report block => ∃ located, Shows required directory report located block)
        reports blocks := by
  rcases exists_of_bind_eq_ok done with ⟨blocks, shown, same⟩
  cases same
  refine ⟨blocks, rfl, (mapM_eq_ok_iff.1 shown).imp ?_⟩
  intro report block own
  rcases exists_of_bind_eq_ok own with ⟨located, found, same⟩
  cases same
  exact ⟨located, shows_of_located found⟩

theorem exists_lists (unfixed : IsUnfixed report) : ∃ located,
    report.located = .ok located ∧ Lists required directory report located
      (located.map (line required (report.shownPath directory))) := by
  rcases unfixed.exists_reports with ⟨mode, tree, formed, apart, same⟩
  have bounded : ∀ diagnostic ∈ report.diagnostics,
      IsBoundary report.source diagnostic.span.start := by
    intro diagnostic member
    rw [same] at member
    exact (boundary_of_mem_reports formed member).1
  rcases exists_located bounded with ⟨located, found⟩
  rcases located_eq found with ⟨diagnostics, locations⟩
  refine ⟨located, found, shows_of_located found, ?_⟩
  have ascending : report.diagnostics.Pairwise fun first second =>
      first.span.start < second.span.start := by
    rw [same]
    apply (reports_ordered formed apart mode).imp_of_mem
    intro first second firstIn _ ordered
    have filled := start_lt_stop_of_mem_reports firstIn
    omega
  rw [← diagnostics, List.pairwise_map] at ascending
  apply ascending.imp_of_mem
  intro first second firstIn secondIn ordered
  have own (pair : Location × Diagnostic) (member : pair ∈ located) :
      pair.2 ∈ report.diagnostics := by
    rw [← diagnostics]
    exact List.mem_map_of_mem member
  have small : second.2.span.start < Ordinal.largest := by
    have below := unfixed.bounded second.2 (own second secondIn)
    have span := second.2.span.start_le_stop
    simp only [Offset.limit, Ordinal.largest] at *
    omega
  exact LineIndex.location_before (bounded _ (own first firstIn)) (bounded _ (own second secondIn))
    small ordered (locations first firstIn) (locations second secondIn)

theorem exists_blocks {reports : List FileReport} (unfixed : ∀ report ∈ reports, IsUnfixed report)
    (required : Applicability) (directory : Route) :
    ∃ blocks, reports.mapM (reportLines required directory) = .ok blocks ∧
      List.Forall₂ (fun report block => ∃ located, Lists required directory report located block)
        reports blocks := by
  induction reports with
  | nil => exact ⟨[], rfl, .nil⟩
  | cons report rest ih =>
      rcases exists_lists (unfixed report List.mem_cons_self) with ⟨located, found, lists⟩
      rcases ih fun other member => unfixed other (List.mem_cons_of_mem _ member) with
        ⟨blocks, rests, all⟩
      refine ⟨_ :: blocks, ?_, .cons ⟨located, lists⟩ all⟩
      rw [List.mapM_cons, reportLines, found, rests]
      rfl

variable {located : List (Location × Diagnostic)} {block : List String}

theorem Lists.exists_of_mem (lists : Lists required directory report located block) {text : String}
    (member : text ∈ block) :
    ∃ found ∈ located, text = line required (report.shownPath directory) found := by
  rw [lists.block_eq] at member
  rcases List.mem_map.1 member with ⟨found, own, rfl⟩
  exact ⟨found, own, (line_eq _ found).symm⟩

theorem Lists.snd_mem (lists : Lists required directory report located block)
    {found : Location × Diagnostic} (member : found ∈ located) :
    found.2 ∈ report.diagnostics := by
  rw [← lists.diagnostics_eq]
  exact List.mem_map_of_mem member

theorem Lists.countP_isMarked (lists : Lists required directory report located block)
    (unfixed : IsUnfixed report) :
    block.countP isMarked = report.diagnostics.countP (isFixable required) := by
  rw [← lists.diagnostics_eq, lists.block_eq, List.countP_map, List.countP_map]
  apply List.countP_congr
  intro found member
  have ends := line_ends unfixed (lists.snd_mem member) required (report.shownPath directory)
  rw [Function.comp_apply, ← line_eq, ends.1, Function.comp_apply]

theorem Lists.getLast?_ne (lists : Lists required directory report located block)
    (unfixed : IsUnfixed report) {text : String} (member : text ∈ block) :
    text.toList.getLast? ≠ some '!' := by
  rcases lists.exists_of_mem member with ⟨found, listed, rfl⟩
  exact (line_ends unfixed (lists.snd_mem listed) required _).2

end Lines

section Summaries

variable {required : Applicability} {directory : Route} {reports : List FileReport}
  {blocks : List (List String)}

theorem countP_isMarked_flatten (unfixed : ∀ report ∈ reports, IsUnfixed report)
    (all : List.Forall₂ (fun report block => ∃ located,
      Lists required directory report located block) reports blocks) :
    blocks.flatten.countP isMarked =
      (reports.flatMap (·.diagnostics)).countP (isFixable required) := by
  induction all with
  | nil => rfl
  | cons lists _ ih =>
      rcases lists with ⟨located, lists⟩
      rw [List.flatten_cons, List.flatMap_cons, List.countP_append, List.countP_append,
        lists.countP_isMarked (unfixed _ List.mem_cons_self),
        ih fun other member => unfixed other (List.mem_cons_of_mem _ member)]

theorem getLast?_flatten (unfixed : ∀ report ∈ reports, IsUnfixed report)
    (all : List.Forall₂ (fun report block => ∃ located,
      Lists required directory report located block) reports blocks) {text : String}
    (member : text ∈ blocks.flatten) : text.toList.getLast? ≠ some '!' := by
  induction all with
  | nil => exact absurd member List.not_mem_nil
  | cons lists _ ih =>
      rcases lists with ⟨located, lists⟩
      rcases List.mem_append.1 member with own | later
      · exact lists.getLast?_ne (unfixed _ List.mem_cons_self) own
      · exact ih (fun other member => unfixed other (List.mem_cons_of_mem _ member)) later

theorem countP_isMarked_summary (summary : Summary) : summary.lines.countP isMarked = 0 := by
  rw [List.countP_eq_zero]
  intro text member
  rw [Bool.not_eq_true]
  rcases getLast?_summary member with stop | ⟨rfl, -, -⟩
  · exact not_isMarked stop (by decide)
  · rfl

theorem fixed_eq_zero (unfixed : ∀ report ∈ reports, IsUnfixed report) :
    (Summary.ofReports required reports).fixed = 0 := by
  rw [Summary.ofReports]
  simp only
  induction reports with
  | nil => rfl
  | cons report rest ih =>
      rw [List.foldl_cons, (unfixed report List.mem_cons_self).unfixed]
      exact ih fun other member => unfixed other (List.mem_cons_of_mem _ member)

theorem remaining_eq_zero_iff : (Summary.ofReports required reports).remaining = 0 ↔
    ∀ report ∈ reports, report.diagnostics = [] := by
  rw [Summary.ofReports]
  simp only
  rw [List.length_eq_zero_iff, List.flatMap_eq_nil_iff]

end Summaries

/-- What is said of a number of problems, of which some would be fixed and some more with unsafe
fixes. -/
def tally (found fixable heldBack : Nat) : String :=
  if found = 0 then "All checks passed!"
  else
    "Found " ++ toString found ++ " problem(s)" ++
      (if fixable = 0 then "" else " (" ++ toString fixable ++ " fixable with --fix)") ++
      (if heldBack = 0 then ""
        else " (" ++ toString heldBack ++ " fixable with --fix --unsafe-fixes)") ++ "."

theorem Summary.lines_of_unfixed {summary : Summary} (unfixed : summary.fixed = 0) :
    summary.lines = [tally summary.remaining summary.fixable summary.heldBack] := by
  rw [Summary.lines, unfixed, tally, remark, remark]
  by_cases clean : summary.remaining = 0
  · simp only [clean, if_true, List.nil_append]
  · simp only [clean, if_true, if_false, List.nil_append]

def accessReport : FileReport :=
  { path := ⟨"access.js"⟩, source := accessSource,
    diagnostics := reports .always accessSource accessTree }

def importReport : FileReport :=
  { path := ⟨"import.js"⟩, source := importSource,
    diagnostics := reports .always importSource importTree }

end NameLint.Plain
