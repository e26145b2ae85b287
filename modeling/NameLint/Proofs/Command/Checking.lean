import NameLint.Command.Run
import NameLint.Proofs.Files.Write
import NameLint.Proofs.Lint.Finding

/-!
# Checking one file after the other

A step reads one file, reports on it and rewrites it if a fix was made. When the paths of a run lead
to different files no step sees what another one wrote. So the reports are those of the files as they
were at first, and the files at the end are those with the rewrites of the reports.
-/

namespace NameLint.Command

open NameLint.Files

set_option autoImplicit false

section Rewriting

variable {directory : Route} {files : FileSystem} {reports : List FileReport}

/-- The files after those of the report's fixes have been written that were made. -/
def rewrite (directory : Route) (files : FileSystem) (report : FileReport) : FileSystem :=
  if report.fixed = 0 then files else files.write directory report.path report.source

def rewriteAll (directory : Route) (files : FileSystem) (reports : List FileReport) : FileSystem :=
  reports.foldl (rewrite directory) files

theorem alike_rewrite (report : FileReport) : files.Alike (rewrite directory files report) := by
  rw [rewrite]
  split
  · exact .refl files
  · exact files.alike_write directory report.path report.source

theorem read_rewrite_of_apart {report : FileReport} {path : Pathname}
    (apart : files.Apart directory report.path path) (text : String) :
    (rewrite directory files report).read directory path = .ok text ↔
      files.read directory path = .ok text := by
  rw [rewrite]
  split
  · rfl
  · exact FileSystem.read_write_of_apart apart report.source text

theorem read_rewriteAll_of_apart {path : Pathname}
    (apart : ∀ report ∈ reports, files.Apart directory report.path path) (text : String) :
    (rewriteAll directory files reports).read directory path = .ok text ↔
      files.read directory path = .ok text := by
  induction reports generalizing files with
  | nil => rfl
  | cons report rest ih =>
      have alike : files.Alike (rewrite directory files report) := alike_rewrite report
      rw [rewriteAll, List.foldl_cons, ← read_rewrite_of_apart (apart report List.mem_cons_self)]
      exact ih fun other member => alike.apart_iff.2 (apart other (List.mem_cons_of_mem _ member))

theorem read_rewriteAll {reports : List FileReport}
    (apart : reports.Pairwise fun report other =>
      files.Apart directory report.path other.path)
    (readable : ∀ report ∈ reports, ∃ source, files.read directory report.path = .ok source ∧
      (report.fixed = 0 → report.source = source)) :
    ∀ report ∈ reports,
      (rewriteAll directory files reports).read directory report.path = .ok report.source := by
  induction reports generalizing files with
  | nil => simp
  | cons first rest ih =>
      obtain ⟨heads, tails⟩ := List.pairwise_cons.1 apart
      have alike : files.Alike (rewrite directory files first) := alike_rewrite first
      intro report member
      rw [rewriteAll, List.foldl_cons]
      rcases List.mem_cons.1 member with rfl | later
      -- the later rewrites are of other files
      · refine (read_rewriteAll_of_apart (fun other among => ?_) _).2 ?_
        · exact alike.apart_iff.2 (heads other among).symm
        · obtain ⟨source, read, kept⟩ := readable report List.mem_cons_self
          rw [rewrite]
          split
          · next none => rw [kept none, read]
          · exact FileSystem.read_write_self read report.source
      · refine ih (tails.imp alike.apart_iff.2) (fun other among => ?_) report later
        obtain ⟨source, read, kept⟩ := readable other (List.mem_cons_of_mem _ among)
        exact ⟨source, (read_rewrite_of_apart (heads other among) source).2 read, kept⟩

theorem sight?_rewriteAll {route : Route} (elsewhere : ∀ report ∈ reports, report.fixed ≠ 0 →
      files.locate directory report.path ≠ .ok route) :
    (rewriteAll directory files reports).sight? route = files.sight? route := by
  induction reports generalizing files with
  | nil => rfl
  | cons report rest ih =>
      have alike : files.Alike (rewrite directory files report) := alike_rewrite report
      have first : (rewrite directory files report).sight? route = files.sight? route := by
        rw [rewrite]
        split
        · rfl
        · next made =>
            exact FileSystem.sight?_write_of_ne (elsewhere report List.mem_cons_self made)
      rw [rewriteAll, List.foldl_cons, ← first]
      refine ih fun other member made => ?_
      rw [← alike.locate_eq]
      exact elsewhere other (List.mem_cons_of_mem _ member) made

theorem rewriteAll_of_none (none : ∀ report ∈ reports, report.fixed = 0) :
    rewriteAll directory files reports = files := by
  induction reports with
  | nil => rfl
  | cons report rest ih =>
      rw [rewriteAll, List.foldl_cons, rewrite, if_pos (none report List.mem_cons_self)]
      exact ih fun other member => none other (List.mem_cons_of_mem _ member)

end Rewriting

section Step

variable {checker : Checker} {progress after : Progress} {path : Pathname}

/-- What the checker reports of a file that holds the source: the diagnostics of the text that it
leaves there, which is the source after the fixes that were allowed. -/
structure Checker.Reports (checker : Checker) (source : String) (report : FileReport) : Prop where
  found : checker.linter.check report.source (checker.parse report.source) =
    .ok report.diagnostics
  settled : match checker.required with
    | none => report.source = source ∧ report.fixed = 0
    | some required => ∃ diagnostics result,
        checker.linter.check source (checker.parse source) = .ok diagnostics ∧
        applyFixes source diagnostics required = .ok result ∧ report.fixed = result.count ∧
        report.source = if result.count = 0 then source else result.code

theorem Checker.Reports.source_eq {source : String} {report : FileReport}
    (reports : checker.Reports source report) (none : report.fixed = 0) :
    report.source = source := by
  have settled := reports.settled
  split at settled
  · exact settled.1
  · obtain ⟨_, result, -, -, count, code⟩ := settled
    rw [code, if_pos (count.symm.trans none)]

theorem Checker.found_of_check {source : String} {events : List Event}
    {diagnostics : List Diagnostic} (checked : checker.check source = .ok (events, diagnostics)) :
    checker.linter.check source (checker.parse source) = .ok diagnostics := by
  obtain ⟨found, own, remainder⟩ := exists_of_bind_eq_ok checked
  obtain ⟨_, -, same⟩ := exists_of_bind_eq_ok remainder
  cases same
  exact own

theorem Checker.exists_of_fixFile {required : Applicability} {report fixed : FileReport}
    (done : checker.fixFile required progress report = .ok (after, fixed)) :
    ∃ result, applyFixes report.source report.diagnostics required = .ok result ∧
      (result.count = 0 ∧ after = progress ∧ fixed = report ∨
        result.count ≠ 0 ∧ after.reports = progress.reports ∧
          after.files = progress.files.write checker.directory report.path result.code ∧
          checker.linter.check result.code (checker.parse result.code) = .ok fixed.diagnostics ∧
          fixed.path = report.path ∧ fixed.source = result.code ∧ fixed.fixed = result.count) := by
  obtain ⟨result, applied, remainder⟩ := exists_of_bind_eq_ok done
  refine ⟨result, applied, ?_⟩
  split at remainder
  · next none =>
      cases remainder
      exact .inl ⟨none, rfl, rfl⟩
  · next some =>
      obtain ⟨⟨events, diagnostics⟩, checked, same⟩ := exists_of_bind_eq_ok remainder
      cases same
      exact .inr ⟨some, rfl, rfl, Checker.found_of_check checked, rfl, rfl, rfl⟩

/-- All that one step can do: it skips a file that cannot be read, or reports on it and rewrites it
if a fix was made. -/
theorem Checker.cases_of_checkFile (done : checker.checkFile progress path = .ok after) :
    (∃ reason, progress.files.read checker.directory path = .error reason) ∧
        after.files = progress.files ∧ after.reports = progress.reports ∨
      ∃ source report, progress.files.read checker.directory path = .ok source ∧
        report.path = path ∧ checker.Reports source report ∧
        after.files = rewrite checker.directory progress.files report ∧
        after.reports = progress.reports ++ [report] := by
  rw [checkFile] at done
  split at done
  · next reason read =>
      cases done
      exact .inl ⟨⟨reason, read⟩, rfl, rfl⟩
  · next source read =>
      refine .inr ⟨source, ?_⟩
      obtain ⟨⟨events, diagnostics⟩, checked, remainder⟩ := exists_of_bind_eq_ok done
      have found := Checker.found_of_check checked
      cases level : checker.required with
      | none =>
          simp only [level] at remainder
          cases remainder
          exact ⟨⟨path, source, diagnostics, 0⟩, read, rfl, ⟨found, by simp [level]⟩, rfl, rfl⟩
      | some required =>
          simp only [level] at remainder
          obtain ⟨⟨next, fixed⟩, fixing, same⟩ := exists_of_bind_eq_ok remainder
          cases same
          obtain ⟨result, applied, cases⟩ := Checker.exists_of_fixFile fixing
          refine ⟨fixed, read, ?_⟩
          rcases cases with ⟨none, rfl, rfl⟩ | ⟨some, reports, files, again, own, code, count⟩
          · refine ⟨rfl, ⟨found, ?_⟩, rfl, rfl⟩
            simp only [level]
            exact ⟨diagnostics, result, found, applied, none.symm, (if_pos none).symm⟩
          · refine ⟨own, ⟨code ▸ again, ?_⟩, ?_, ?_⟩
            · simp only [level]
              exact ⟨diagnostics, result, found, applied, count, code.trans (if_neg some).symm⟩
            · rw [rewrite, if_neg (count ▸ some), own, code]
              exact files
            · rw [reports]
              rfl

end Step

section Run

variable {checker : Checker}

/-- What a run over files that hold still leads to: a report on each file that can be read, about
the text that the file had at first, and the rewrites of these reports. -/
structure Checker.Completes (checker : Checker) (files : FileSystem) (paths : List Pathname)
    (reports : List FileReport) (last : FileSystem) : Prop where
  paths_eq : reports.map (·.path) = paths.filter (files.isReadable checker.directory)
  reported : ∀ report ∈ reports, ∃ source,
    files.read checker.directory report.path = .ok source ∧ checker.Reports source report
  files_eq : last = rewriteAll checker.directory files reports

theorem Checker.Completes.read_last {files last : FileSystem} {paths : List Pathname}
    {reports : List FileReport} (completes : checker.Completes files paths reports last)
    (apart : paths.Pairwise (files.Apart checker.directory)) :
    ∀ report ∈ reports, last.read checker.directory report.path = .ok report.source := by
  have listed : (reports.map (·.path)).Pairwise (files.Apart checker.directory) := by
    rw [completes.paths_eq]
    exact apart.filter _
  rw [completes.files_eq]
  apply read_rewriteAll (List.pairwise_map.1 listed)
  intro report member
  obtain ⟨source, read, about⟩ := completes.reported report member
  exact ⟨source, read, about.source_eq⟩

theorem Checker.Completes.of_rewrite {files last : FileSystem} {paths : List Pathname}
    {reports : List FileReport} {first : FileReport}
    (apart : ∀ path ∈ paths, files.Apart checker.directory first.path path)
    (completes : checker.Completes (rewrite checker.directory files first) paths reports last) :
    reports.map (·.path) = paths.filter (files.isReadable checker.directory) ∧
      ∀ report ∈ reports, ∃ source,
        files.read checker.directory report.path = .ok source ∧ checker.Reports source report := by
  have readable : paths.filter ((rewrite checker.directory files first).isReadable
      checker.directory) = paths.filter (files.isReadable checker.directory) := by
    apply List.filter_congr
    intro path member
    rw [Bool.eq_iff_iff, FileSystem.isReadable_iff, FileSystem.isReadable_iff]
    simp only [read_rewrite_of_apart (apart path member)]
  have paths_eq := completes.paths_eq.trans readable
  refine ⟨paths_eq, fun report member => ?_⟩
  have own : report.path ∈ paths := by
    have listed : report.path ∈ reports.map (·.path) := List.mem_map_of_mem member
    rw [paths_eq] at listed
    exact (List.mem_filter.1 listed).1
  obtain ⟨source, read, about⟩ := completes.reported report member
  exact ⟨source, (read_rewrite_of_apart (apart _ own) source).1 read, about⟩

theorem Checker.completes_of_checkFiles {paths : List Pathname} {start last : Progress}
    (apart : paths.Pairwise (start.files.Apart checker.directory))
    (done : checker.checkFiles start paths = .ok last) :
    ∃ reports, last.reports = start.reports ++ reports ∧
      checker.Completes start.files paths reports last.files := by
  induction paths generalizing start with
  | nil =>
      cases done
      exact ⟨[], (List.append_nil _).symm, rfl, by simp, rfl⟩
  | cons path rest ih =>
      obtain ⟨heads, tails⟩ := List.pairwise_cons.1 apart
      rw [checkFiles, List.foldlM_cons] at done
      obtain ⟨next, step, remainder⟩ := exists_of_bind_eq_ok done
      rcases Checker.cases_of_checkFile step with
        ⟨⟨reason, unread⟩, files, earlier⟩ | ⟨source, first, read, own, about, files, earlier⟩
      · rw [← files] at tails
        obtain ⟨reports, whole, completes⟩ := ih tails remainder
        rw [files] at completes
        rw [earlier] at whole
        refine ⟨reports, whole, ?_, completes.reported, completes.files_eq⟩
        have skipped : ¬ start.files.isReadable checker.directory path := by
          rw [FileSystem.isReadable_iff, unread]
          simp
        rw [List.filter_cons_of_neg skipped]
        exact completes.paths_eq
      · subst own
        have alike : start.files.Alike next.files := by
          rw [files]
          exact alike_rewrite first
        obtain ⟨reports, whole, completes⟩ := ih (tails.imp alike.apart_iff.2) remainder
        rw [files] at completes
        obtain ⟨paths_eq, reported⟩ := completes.of_rewrite heads
        rw [earlier, List.append_assoc] at whole
        have readable : start.files.isReadable checker.directory first.path :=
          FileSystem.isReadable_iff.2 ⟨source, read⟩
        refine ⟨first :: reports, whole, ?_, ?_, completes.files_eq⟩
        · rw [List.filter_cons_of_pos readable, List.map_cons, paths_eq]
        · intro report member
          rcases List.mem_cons.1 member with rfl | later
          · exact ⟨source, read, about⟩
          · exact reported report later

theorem Checker.found_of_mem_reports {paths : List Pathname} {start last : Progress}
    (fresh : start.reports = []) (done : checker.checkFiles start paths = .ok last) :
    ∀ report ∈ last.reports,
      checker.linter.check report.source (checker.parse report.source) =
        .ok report.diagnostics := by
  refine foldlM_keeps (fun progress : Progress => ∀ report ∈ progress.reports,
    checker.linter.check report.source (checker.parse report.source) = .ok report.diagnostics)
    ?_ (by simp [fresh]) done
  intro progress held path _ next step report member
  rcases Checker.cases_of_checkFile step with
    ⟨-, -, earlier⟩ | ⟨source, first, -, -, about, -, earlier⟩
  · rw [earlier] at member
    exact held report member
  · rw [earlier] at member
    rcases List.mem_append.1 member with old | new
    · exact held report old
    · rw [List.mem_singleton.1 new]
      exact about.found

end Run

section Total

variable {checker : Checker} {settings : Settings} (own : checker.linter = .ofSettings settings)
  (formed : ∀ source, WellFormed source (checker.parse source))

include own

theorem Checker.renames_of_found {source : String} {diagnostics : List Diagnostic}
    (found : checker.linter.check source (checker.parse source) = .ok diagnostics) :
    ∀ diagnostic ∈ diagnostics, RenamesIn source diagnostic := by
  intro diagnostic member
  rw [own] at found
  exact renamesIn_of_mem_check found member

include formed

theorem Checker.exists_check (source : String) : ∃ answer, checker.check source = .ok answer := by
  apply exists_bind_eq_ok
  · rw [own]
    exact exists_check_of_wellFormed settings (formed source)
  · intro found checked
    apply exists_bind_eq_ok
    · rw [exists_mapM_eq_ok_iff]
      intro diagnostic member
      obtain ⟨name, text, -⟩ := Checker.renames_of_found own checked diagnostic member
      exact exists_bind_eq_ok ⟨name, text⟩ fun _ _ => ⟨_, rfl⟩
    · exact fun _ _ => ⟨_, rfl⟩

theorem Checker.exists_fixFile (required : Applicability) (progress : Progress)
    {report : FileReport}
    (renames : ∀ diagnostic ∈ report.diagnostics, RenamesIn report.source diagnostic) :
    ∃ answer, checker.fixFile required progress report = .ok answer := by
  apply exists_bind_eq_ok
  · obtain ⟨result, applied, -⟩ := exists_applyFixes_of_renamesIn renames required
    exact ⟨result, applied⟩
  · intro result _
    simp only
    split
    · exact ⟨_, rfl⟩
    · exact exists_bind_eq_ok (Checker.exists_check own formed result.code) fun _ _ => ⟨_, rfl⟩

theorem Checker.exists_checkFile (progress : Progress) (path : Pathname) :
    ∃ after, checker.checkFile progress path = .ok after := by
  rw [checkFile]
  split
  · exact ⟨_, rfl⟩
  · next source read =>
      apply exists_bind_eq_ok (Checker.exists_check own formed source)
      rintro ⟨events, diagnostics⟩ checked
      have renames := Checker.renames_of_found own (Checker.found_of_check checked)
      cases checker.required with
      | none => exact ⟨_, rfl⟩
      | some required =>
          apply exists_bind_eq_ok
          · exact Checker.exists_fixFile own formed required _ renames
          · exact fun _ _ => ⟨_, rfl⟩

theorem Checker.exists_checkFiles (start : Progress) (paths : List Pathname) :
    ∃ last, checker.checkFiles start paths = .ok last :=
  exists_foldlM (fun progress path _ => Checker.exists_checkFile own formed progress path) start

end Total

end NameLint.Command
