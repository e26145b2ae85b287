import NameLint.Proofs.Command.Checking
import NameLint.Proofs.Command.Loading
import NameLint.Proofs.Files.Discovery
import NameLint.Proofs.Files.Plain
import NameLint.Proofs.Report.Checkstyle
import NameLint.Proofs.Report.Plain

/-!
# What a whole run leaves behind

A run that cannot start leaves everything as it is. Any other run leaves the files and its report in
step: what it says of a file is what a check of the file would find now.
-/

namespace NameLint.Command

open NameLint.Files NameLint.Text NameLint.Source

set_option autoImplicit false

section Rendering

variable {reports : List FileReport}

theorem exists_reportLines (invocation : Invocation) (directory : Route)
    (bounded : ∀ report ∈ reports, ∀ diagnostic ∈ report.diagnostics,
      IsBoundary report.source diagnostic.span.start) :
    ∃ lines, reportLines invocation directory reports = .ok lines := by
  rw [reportLines]
  split
  · apply exists_bind_eq_ok
    · rw [exists_mapM_eq_ok_iff]
      intro report member
      exact exists_bind_eq_ok (exists_located (bounded report member)) fun _ _ => ⟨_, rfl⟩
    · exact fun _ _ => ⟨_, rfl⟩
  · apply exists_bind_eq_ok
    · apply exists_bind_eq_ok
      · rw [exists_mapM_eq_ok_iff]
        intro report member
        exact exists_bind_eq_ok (exists_located (bounded report member)) fun _ _ => ⟨_, rfl⟩
      · exact fun _ _ => ⟨_, rfl⟩
    · exact fun _ _ => ⟨_, rfl⟩

/-- The printed lines tell of every file, and of each of its diagnostics where it starts in the
source of the report. A reader of the checkstyle report is told so. -/
def ShowsPlaces (invocation : Invocation) (directory : Route) (reports : List FileReport)
    (printed : List String) : Prop :=
  match invocation.format with
  | .plain => ∃ blocks,
      printed = blocks.flatten ++ (Plain.Summary.ofReports invocation.level reports).lines ∧
      List.Forall₂ (fun report block => ∃ located,
        Plain.Shows invocation.level directory report located block) reports blocks
  | .checkstyle => ∃ entries, Checkstyle.readReport (joinLines printed) = some entries ∧
      List.Forall₂ (Checkstyle.Tells directory) reports entries

theorem showsPlaces_of_reportLines {invocation : Invocation} {directory : Route}
    {printed : List String} (bounded : ∀ report ∈ reports, ∀ diagnostic ∈ report.diagnostics,
      IsBoundary report.source diagnostic.span.start)
    (done : reportLines invocation directory reports = .ok printed) :
    ShowsPlaces invocation directory reports printed := by
  rw [reportLines] at done
  rw [ShowsPlaces]
  cases format : invocation.format with
  | plain =>
      rw [format] at done
      exact Plain.exists_shows_of_lines done
  | checkstyle =>
      rw [format] at done
      exact Checkstyle.exists_tells_of_lines bounded done

theorem exitCode_cases (reports : List FileReport) :
    exitCode reports = 1 ∧ (∃ report ∈ reports, report.diagnostics ≠ []) ∨
      exitCode reports = 0 ∧ ∀ report ∈ reports, report.diagnostics = [] := by
  rw [exitCode]
  split
  · next clean =>
      refine .inr ⟨rfl, fun report member => ?_⟩
      simpa using List.all_eq_true.1 clean report member
  · next some =>
      refine .inl ⟨rfl, ?_⟩
      simpa using some

end Rendering

section Perform

variable {parse : String → Tree} {workspace : Workspace} {invocation : Invocation}

/-- The settings file cannot be used, or some path leads to nothing. -/
def CannotStart (workspace : Workspace) (invocation : Invocation) : Prop :=
  (∃ path, SettingsAt workspace invocation path ∧ Unusable workspace path) ∨
    ∃ path ∈ invocation.paths, ¬ IsPresent workspace.files workspace.directory path

theorem exists_of_not_cannotStart (able : ¬ CannotStart workspace invocation) :
    ∃ events settings paths, workspace.loadSettings invocation = .ok (events, settings) ∧
      discover workspace.files workspace.directory invocation.paths = .ok paths := by
  rw [CannotStart, ← exists_loadSettings_error_iff, not_or] at able
  obtain ⟨loadable, present⟩ := able
  have found : ∃ paths,
      discover workspace.files workspace.directory invocation.paths = .ok paths := by
    rw [exists_discover_iff]
    intro path member
    by_contra absent
    exact present ⟨path, member, absent⟩
  obtain ⟨paths, found⟩ := found
  cases loaded : workspace.loadSettings invocation with
  | error error => exact absurd ⟨error, loaded⟩ loadable
  | ok answer => exact ⟨answer.1, answer.2, paths, rfl, found⟩

theorem perform_of_cannotStart (parse : String → Tree)
    (unable : CannotStart workspace invocation) :
    ∃ outcome, perform parse workspace invocation = .ok outcome ∧ outcome.output.exit = 2 ∧
      outcome.files = workspace.files := by
  rw [CannotStart, ← exists_loadSettings_error_iff] at unable
  rw [perform]
  cases loaded : workspace.loadSettings invocation with
  | error error => exact ⟨_, rfl, rfl, rfl⟩
  | ok answer =>
      have absent : ¬ ∃ paths,
          discover workspace.files workspace.directory invocation.paths = .ok paths := by
        rw [exists_discover_iff]
        rcases unable with ⟨error, failed⟩ | ⟨path, member, absent⟩
        · rw [loaded] at failed
          cases failed
        · exact fun all => absent (all path member)
      cases found : discover workspace.files workspace.directory invocation.paths with
      | error error => exact ⟨_, rfl, rfl, rfl⟩
      | ok paths => exact absurd ⟨paths, found⟩ absent

def checkerOf (parse : String → Tree) (workspace : Workspace) (invocation : Invocation)
    (settings : Settings) : Checker where
  parse := parse
  linter := .ofSettings settings
  directory := workspace.directory
  required := if invocation.fix then some invocation.level else none

variable {events : List Event} {settings : Settings} {paths : List Pathname}
  (loaded : workspace.loadSettings invocation = .ok (events, settings))
  (found : discover workspace.files workspace.directory invocation.paths = .ok paths)

include loaded found

theorem exists_of_perform {outcome : Outcome}
    (done : perform parse workspace invocation = .ok outcome) :
    ∃ start last lines, start.files = workspace.files ∧ start.reports = [] ∧
      (checkerOf parse workspace invocation settings).checkFiles start paths = .ok last ∧
      reportLines invocation workspace.directory last.reports = .ok lines ∧
      outcome.output = { exit := exitCode last.reports, stdout := joinLines lines } ∧
      outcome.files = last.files := by
  simp only [perform, loaded, found] at done
  obtain ⟨last, checked, remainder⟩ := exists_of_bind_eq_ok done
  obtain ⟨lines, shown, same⟩ := exists_of_bind_eq_ok remainder
  cases same
  exact ⟨_, last, lines, rfl, rfl, checked, shown, rfl, rfl⟩

theorem exists_perform (formed : ∀ source, WellFormed source (parse source)) :
    ∃ outcome, perform parse workspace invocation = .ok outcome := by
  simp only [perform, loaded, found]
  apply exists_bind_eq_ok
  · exact @Checker.exists_checkFiles (checkerOf parse workspace invocation settings) settings rfl
      formed _ paths
  · intro last checked
    apply exists_bind_eq_ok
    · apply exists_reportLines
      intro report member diagnostic own
      have again := @Checker.found_of_mem_reports
        (checkerOf parse workspace invocation settings) paths _ last rfl checked report member
      exact (boundary_of_renamesIn (fun other => renamesIn_of_mem_check again) own).1
    · exact fun _ _ => ⟨_, rfl⟩

/-- The files at the end of a run and its reports, which are on the collected paths in their order,
as far as these can be read. -/
structure InStep (parse : String → Tree) (workspace : Workspace) (invocation : Invocation)
    (settings : Settings) (paths : List Pathname) (output : Output) (files : FileSystem)
    (reports : List FileReport) : Prop where
  ordered : paths.Pairwise fun path other => path.precedes other
  paths_eq : reports.map (·.path) =
    paths.filter (workspace.files.isReadable workspace.directory)
  /-- A report is about the text that the file has now. -/
  current : ∀ report ∈ reports,
    files.read workspace.directory report.path = .ok report.source ∧
    (Linter.ofSettings settings).check report.source (parse report.source) =
      .ok report.diagnostics
  /-- This is the text of old, unless fixes were asked for and some were made. -/
  rewritten : ∀ report ∈ reports, ∃ source diagnostics result,
    workspace.files.read workspace.directory report.path = .ok source ∧
    (Linter.ofSettings settings).check source (parse source) = .ok diagnostics ∧
    applyFixes source diagnostics invocation.level = .ok result ∧
    report.fixed = (if invocation.fix then result.count else 0) ∧
    report.source = (if report.fixed = 0 then source else result.code) ∧
    (report.source ≠ source ↔ report.fixed ≠ 0)
  /-- The places that are shown are those in this text. -/
  located : ∀ report ∈ reports, ∃ found, report.located = .ok found ∧
    List.Forall₂ (fun diagnostic shown =>
      (LineIndex.ofText report.source).location diagnostic.span.start report.source =
        .ok shown.1 ∧ shown.2 = diagnostic) report.diagnostics found
  unfixed : invocation.fix = false → files = workspace.files
  untouched : ∀ route, (∀ report ∈ reports, report.fixed ≠ 0 →
      workspace.files.locate workspace.directory report.path ≠ .ok route) →
    files.sight? route = workspace.files.sight? route
  printed : ∃ lines, reportLines invocation workspace.directory reports = .ok lines ∧
    output.stdout = joinLines lines ∧
    ShowsPlaces invocation workspace.directory reports lines
  exit : output.exit = 1 ∧ (∃ report ∈ reports, report.diagnostics ≠ []) ∨
    output.exit = 0 ∧ ∀ report ∈ reports, report.diagnostics = []

omit loaded found in
theorem exists_of_reports {report : FileReport} {source : String}
    (about : (checkerOf parse workspace invocation settings).Reports source report) :
    ∃ diagnostics result,
      (Linter.ofSettings settings).check source (parse source) = .ok diagnostics ∧
      applyFixes source diagnostics invocation.level = .ok result ∧
      report.fixed = (if invocation.fix then result.count else 0) ∧
      report.source = (if report.fixed = 0 then source else result.code) ∧
      (report.source ≠ source ↔ report.fixed ≠ 0) := by
  have settled := about.settled
  cases asked : invocation.fix with
  | false =>
      simp only [checkerOf, asked, Bool.false_eq_true, if_false] at settled
      obtain ⟨same, none⟩ := settled
      have again := about.found
      rw [same] at again
      obtain ⟨result, applied, -⟩ := exists_applyFixes_of_renamesIn
        (fun diagnostic => renamesIn_of_mem_check again) invocation.level
      exact ⟨report.diagnostics, result, again, applied, none, by rw [if_pos none, same],
        by simp [same, none]⟩
  | true =>
      simp only [checkerOf, asked, if_true] at settled
      obtain ⟨diagnostics, result, checked, applied, count, code⟩ := settled
      obtain ⟨result', applied', changes⟩ := exists_applyFixes_of_renamesIn
        (fun diagnostic => renamesIn_of_mem_check checked) invocation.level
      rw [applied, Except.ok.injEq] at applied'
      subst applied'
      refine ⟨diagnostics, result, checked, applied, count, by rw [count, code], ?_⟩
      rw [count, code]
      split
      · next none => simp [none]
      · next some => exact iff_of_true (changes.1 (Nat.pos_of_ne_zero some)) some

theorem exists_inStep {outcome : Outcome}
    (apart : paths.Pairwise (workspace.files.Apart workspace.directory))
    (done : perform parse workspace invocation = .ok outcome) :
    ∃ reports, InStep parse workspace invocation settings paths outcome.output outcome.files
      reports := by
  obtain ⟨start, last, lines, files, fresh, checked, shown, output, filesLast⟩ :=
    exists_of_perform loaded found done
  obtain ⟨reports, whole, completes⟩ := Checker.completes_of_checkFiles (by rwa [files]) checked
  rw [fresh, List.nil_append] at whole
  rw [files] at completes
  rw [whole] at shown output
  have after : outcome.files = rewriteAll workspace.directory workspace.files reports :=
    filesLast.trans completes.files_eq
  have bounded : ∀ report ∈ reports, ∀ diagnostic ∈ report.diagnostics,
      IsBoundary report.source diagnostic.span.start := by
    intro report member diagnostic own
    obtain ⟨source, -, about⟩ := completes.reported report member
    exact (boundary_of_renamesIn (fun _ => renamesIn_of_mem_check about.found) own).1
  refine ⟨reports, discover_sorted found, completes.paths_eq, ?_, ?_, ?_, ?_, ?_,
    ⟨lines, shown, ?_, showsPlaces_of_reportLines bounded shown⟩, ?_⟩
  · intro report member
    obtain ⟨source, -, about⟩ := completes.reported report member
    rw [filesLast]
    exact ⟨completes.read_last apart report member, about.found⟩
  · intro report member
    obtain ⟨source, read, about⟩ := completes.reported report member
    obtain ⟨diagnostics, result, told⟩ := exists_of_reports about
    exact ⟨source, diagnostics, result, read, told⟩
  · intro report member
    obtain ⟨places, located⟩ := exists_located (bounded report member)
    exact ⟨places, located, located_eq_ok_iff.1 located⟩
  · intro unasked
    rw [after]
    apply rewriteAll_of_none
    intro report member
    obtain ⟨source, -, about⟩ := completes.reported report member
    obtain ⟨_, _, -, -, count, -⟩ := exists_of_reports about
    rw [count, unasked]
    rfl
  · intro route elsewhere
    rw [after]
    exact sight?_rewriteAll elsewhere
  · rw [output]
  · rw [output]
    exact exitCode_cases reports

end Perform

section TwoFiles

/-- Two files to check, of which the first in order holds nothing but a name, and three that hold no
settings: the bytes of one are no text, one is no document, and one is of another format. -/
def twoFiles : Workspace where
  files := ⟨.directory
    [("b.js", .file (some "a_b")), ("a.js", .file (some "x")), ("raw.toml", .file none),
     ("broken.toml", .file (some "rules =")), ("number.toml", .file (some "rules = 1"))]⟩
  directory := []

theorem plain_twoFiles : twoFiles.files.root.Plain := by
  refine .directory (by decide) (by decide) ?_
  simp only [List.forall_mem_cons, List.not_mem_nil, false_implies, implies_true, and_true]
  exact ⟨.file _, .file _, .file _, .file _, .file _⟩

def loneName : Tree :=
  .node ⟨"program", none, spanAt 0 3, true, false⟩
    [.node ⟨"identifier", none, spanAt 0 3, true, false⟩ []]

def parseLoneName (source : String) : Tree :=
  if source = "a_b" then loneName else .node ⟨"program", none, default, true, false⟩ []

def fixingBoth : Invocation :=
  { paths := [⟨"a.js"⟩, ⟨"b.js"⟩], fix := true, unsafeFixes := true }

theorem wellFormed_parseLoneName (source : String) :
    WellFormed source (parseLoneName source) := by
  rw [parseLoneName]
  split
  · next same =>
      subst same
      decide
  · have only : (Place.root (.node ⟨"program", none, default, true, false⟩ [])).preorder =
        [Place.root (.node ⟨"program", none, default, true, false⟩ [])] := rfl
    have start : IsBoundary source 0 := ⟨[], source.toList, rfl, rfl⟩
    constructor
    · rw [only]
      intro place within child own
      rw [List.mem_singleton.1 within] at own
      cases own
    · rw [only]
      intro place within
      rw [List.mem_singleton.1 within]
      exact .nil
    · rw [only]
      intro place within
      rw [List.mem_singleton.1 within]
      exact ⟨start, start⟩

/-- A path of one plain name leads to the entry of that name, if there is one. -/
theorem locate_plainName {path : Pathname} {name : RawText}
    (steps : FileSystem.stepsOf path = [name])
    (plain : name ≠ "." ∧ name ≠ ".." ∧ ¬ FileSystem.maxNameSize < name.size)
    (proper : path.text.isEmpty = false ∧ path.isTooLong = false) :
    twoFiles.files.locate twoFiles.directory path =
      if (twoFiles.files.root.at? [name]).isSome then .ok [name] else .error .missing := by
  have noLink := FileSystem.at?_ne_link plain_twoFiles [name]
  have start : (if path.isAbsolute then [] else twoFiles.directory) = [] := ite_self _
  rw [FileSystem.locate, proper.1, proper.2, steps, start, if_neg Bool.false_ne_true,
    if_neg Bool.false_ne_true, FileSystem.follow, if_neg plain.1, if_neg plain.2.1,
    if_neg plain.2.2, List.nil_append]
  generalize twoFiles.files.root.at? [name] = found at noLink ⊢
  rcases found with _ | ⟨content | entries | target⟩
  · rfl
  · rfl
  · exact FileSystem.follow.eq_1 _ _ _
  · exact absurd rfl (noLink target)

theorem find_plainName {path : Pathname} {name : RawText}
    (steps : FileSystem.stepsOf path = [name])
    (plain : name ≠ "." ∧ name ≠ ".." ∧ ¬ FileSystem.maxNameSize < name.size)
    (proper : path.text.isEmpty = false ∧ path.isTooLong = false) :
    twoFiles.files.find twoFiles.directory path =
      (twoFiles.files.root.at? [name]).elim (.error .missing) .ok := by
  rw [FileSystem.find, locate_plainName steps plain proper]
  cases standing : twoFiles.files.root.at? [name] with
  | none => rfl
  | some entry => simp only [Option.isSome_some, if_true, bind, Except.bind, standing, Option.elim]

theorem find_toml :
    twoFiles.files.find twoFiles.directory ⟨"/camelint.toml"⟩ = .error .missing ∧
    twoFiles.files.find twoFiles.directory ⟨"raw.toml"⟩ = .ok (.file none) ∧
    twoFiles.files.find twoFiles.directory ⟨"broken.toml"⟩ = .ok (.file (some "rules =")) ∧
    twoFiles.files.find twoFiles.directory ⟨"number.toml"⟩ = .ok (.file (some "rules = 1")) :=
  ⟨@find_plainName ⟨"/camelint.toml"⟩ "camelint.toml" (by decide) (by decide) (by decide),
    @find_plainName ⟨"raw.toml"⟩ "raw.toml" (by decide) (by decide) (by decide),
    @find_plainName ⟨"broken.toml"⟩ "broken.toml" (by decide) (by decide) (by decide),
    @find_plainName ⟨"number.toml"⟩ "number.toml" (by decide) (by decide) (by decide)⟩

theorem find_js :
    twoFiles.files.find twoFiles.directory ⟨"a.js"⟩ = .ok (.file (some "x")) ∧
    twoFiles.files.find twoFiles.directory ⟨"b.js"⟩ = .ok (.file (some "a_b")) ∧
    twoFiles.files.find twoFiles.directory ⟨"c.js"⟩ = .error .missing :=
  ⟨@find_plainName ⟨"a.js"⟩ "a.js" (by decide) (by decide) (by decide),
    @find_plainName ⟨"b.js"⟩ "b.js" (by decide) (by decide) (by decide),
    @find_plainName ⟨"c.js"⟩ "c.js" (by decide) (by decide) (by decide)⟩

theorem loadSettings_twoFiles : twoFiles.loadSettings fixingBoth = .ok ([], {}) := by
  have path : twoFiles.directoryPath.join Workspace.settingsName = ⟨"/camelint.toml"⟩ := by decide
  simp only [Workspace.loadSettings, Workspace.findSettings, fixingBoth, path, FileSystem.isFile,
    find_toml]
  rfl

theorem discover_twoFiles :
    discover twoFiles.files twoFiles.directory fixingBoth.paths = .ok [⟨"a.js"⟩, ⟨"b.js"⟩] := by
  have first : expand twoFiles.files twoFiles.directory ⟨"a.js"⟩ = .ok [⟨"a.js"⟩] := by
    simp only [expand, find_js]
  have second : expand twoFiles.files twoFiles.directory ⟨"b.js"⟩ = .ok [⟨"b.js"⟩] := by
    simp only [expand, find_js]
  have sorted : [Pathname.mk "a.js", ⟨"b.js"⟩].Pairwise fun path other => path.precedes other := by
    decide
  have found : fixingBoth.paths.mapM (expand twoFiles.files twoFiles.directory) =
      .ok [[⟨"a.js"⟩], [⟨"b.js"⟩]] :=
    mapM_eq_ok_iff.2 (.cons first (.cons second .nil))
  have flat : [[Pathname.mk "a.js"], [⟨"b.js"⟩]].flatten = [⟨"a.js"⟩, ⟨"b.js"⟩] := rfl
  simp only [discover, found, bind, Except.bind, flat, List.mergeSort_of_pairwise sorted]
  rfl

theorem exists_fixed_loneName : ∃ diagnostics,
    (Linter.ofSettings {}).check "a_b" (parseLoneName "a_b") = .ok diagnostics ∧
      applyFixes "a_b" diagnostics fixingBoth.level = .ok ⟨"aB", 1⟩ := by
  have checked : (Naming.camelCaseLinter .always).check "a_b" loneName = _ :=
    Naming.check_eq (by decide) (by decide) .always
  have found : Naming.reports .always "a_b" loneName =
      [⟨Naming.notInCamelCase "a_b" "aB", spanAt 0 3,
        some (Fix.ofEdit .optIn ⟨spanAt 0 3, some "aB", by decide⟩)⟩] := by decide
  refine ⟨_, checked, ?_⟩
  have sorted : applicableFixes (Naming.reports .always "a_b" loneName) fixingBoth.level =
      [Fix.ofEdit .optIn ⟨spanAt 0 3, some "aB", by decide⟩] := by
    rw [found]
    exact List.mergeSort_singleton _
  rw [applyFixes, sorted]
  rfl

theorem cannotStart_without_file : CannotStart twoFiles { paths := [⟨"c.js"⟩] } := by
  refine .inr ⟨⟨"c.js"⟩, List.mem_singleton_self _, ?_⟩
  rw [IsPresent, find_js.2.2]
  simp

def configured (config : Pathname) : Invocation :=
  { paths := [⟨"a.js"⟩], config := some config }

theorem unusable_toml : ∀ name ∈ ["c.js", "raw.toml", "broken.toml", "number.toml"],
    Unusable twoFiles ⟨name⟩ := by
  have broken : Toml.parse? "rules =" = none := by
    rw [← Option.isNone_iff_eq_none]
    decide +kernel
  have number : (Toml.parse? "rules = 1").any fun document => ¬Settings.IsAccepted document := by
    decide +kernel
  obtain ⟨document, parsed, unfit⟩ := (Option.any_eq_true ..).1 number
  simp only [List.forall_mem_cons, List.not_mem_nil, false_implies, implies_true, and_true]
  refine ⟨.unreadable ?_, .unreadable ?_, .malformed find_toml.2.2.1 broken,
    .misshapen find_toml.2.2.2 parsed (of_decide_eq_true unfit)⟩
  · intro text holds
    rw [HoldsText, find_js.2.2] at holds
    cases holds
  · intro text holds
    rw [HoldsText, find_toml.2.1] at holds
    cases holds

theorem not_cannotStart_twoFiles : ¬ CannotStart twoFiles fixingBoth := by
  rw [CannotStart, ← exists_loadSettings_error_iff]
  rintro (⟨error, failed⟩ | ⟨path, member, absent⟩)
  · rw [loadSettings_twoFiles] at failed
    cases failed
  · exact absent (exists_discover_iff.1 ⟨_, discover_twoFiles⟩ path member)

theorem apart_twoFiles :
    [Pathname.mk "a.js", ⟨"b.js"⟩].Pairwise (twoFiles.files.Apart twoFiles.directory) := by
  have first : twoFiles.files.locate twoFiles.directory ⟨"a.js"⟩ = .ok ["a.js"] :=
    @locate_plainName ⟨"a.js"⟩ "a.js" (by decide) (by decide) (by decide)
  have second : twoFiles.files.locate twoFiles.directory ⟨"b.js"⟩ = .ok ["b.js"] :=
    @locate_plainName ⟨"b.js"⟩ "b.js" (by decide) (by decide) (by decide)
  refine List.pairwise_pair.2 fun route here there => ?_
  rw [first, Except.ok.injEq] at here
  rw [second, ← here] at there
  exact absurd there (by decide)

theorem InStep.read_second {output : Output} {files : FileSystem} {reports : List FileReport}
    (inStep : InStep parseLoneName twoFiles fixingBoth {} [⟨"a.js"⟩, ⟨"b.js"⟩] output files
      reports) : files.read twoFiles.directory ⟨"b.js"⟩ = .ok "aB" := by
  have text : twoFiles.files.read twoFiles.directory ⟨"b.js"⟩ = .ok "a_b" := by
    simp only [FileSystem.read, find_js, bind, Except.bind]
  have own : Pathname.mk "b.js" ∈ reports.map (·.path) := by
    rw [inStep.paths_eq, List.mem_filter]
    exact ⟨by simp, FileSystem.isReadable_iff.2 ⟨_, text⟩⟩
  obtain ⟨report, member, same⟩ := List.mem_map.1 own
  obtain ⟨source, diagnostics, result, before, checked, applied, count, code, -⟩ :=
    inStep.rewritten report member
  obtain ⟨now, -⟩ := inStep.current report member
  obtain ⟨diagnostics', checked', applied'⟩ := exists_fixed_loneName
  rw [same, text] at before
  cases before
  rw [checked] at checked'
  cases checked'
  rw [applied] at applied'
  cases applied'
  rw [same, code, count] at now
  exact now

end TwoFiles

end NameLint.Command
