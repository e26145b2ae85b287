import NameLint.Proofs.Command.Run
import NameLint.Proofs.Files.Spelling

/-!
# Runs that see every file once

A run reports on the paths that were found, one report each. In a plain file system these lead to
different files as long as arguments that come to the same file are spelled alike, so then no file
is reported or rewritten twice.
-/

namespace NameLint.Command

open NameLint.Files

set_option autoImplicit false

/-- The run reports on files that differ, and leaves files and report in step. -/
def ReportsOnce (parse : String → Tree) (workspace : Workspace) (invocation : Invocation)
    (settings : Settings) (paths : List Pathname) (outcome : Outcome) : Prop :=
  ∃ reports, InStep parse workspace invocation settings paths outcome.output outcome.files reports ∧
    (reports.map (·.path)).Pairwise (workspace.files.Apart workspace.directory)

theorem exists_perform_of_run {parse : String → Tree} {workspace : Workspace}
    {arguments : List String} {invocation : Invocation} {outcome : Outcome}
    (read : Invocation.ofArguments arguments = .ok invocation)
    (ran : run parse workspace arguments = .ok outcome) :
    ∃ whole, perform parse workspace invocation = .ok whole ∧ whole.output = outcome.output ∧
      whole.files = outcome.files := by
  simp only [run, read] at ran
  obtain ⟨whole, done, same⟩ := exists_of_bind_eq_ok ran
  cases same
  exact ⟨whole, done, rfl, rfl⟩

theorem exists_run_of_perform {parse : String → Tree} {workspace : Workspace}
    {arguments : List String} {invocation : Invocation} {whole : Outcome}
    (read : Invocation.ofArguments arguments = .ok invocation)
    (done : perform parse workspace invocation = .ok whole) :
    ∃ events, run parse workspace arguments = .ok { whole with events } := by
  simp only [run, read, done, bind, Except.bind]
  exact ⟨_, rfl⟩

/-- In a plain file system, the paths that are found lead to different files, and a run reports on
each of these once, if arguments that come to the same file are spelled alike. They are, if the
paths can be followed and lead to different files. -/
theorem each_file_once_of_spelledAlike (workspace : Workspace) (plain : workspace.files.root.Plain)
    (given paths : List Pathname)
    (found : discover workspace.files workspace.directory given = .ok paths) :
    (AllSpelledAlike workspace.files workspace.directory given →
      paths.Pairwise (workspace.files.Apart workspace.directory) ∧
      ∀ parse arguments invocation events settings outcome,
        Invocation.ofArguments arguments = .ok invocation → invocation.paths = given →
        workspace.loadSettings invocation = .ok (events, settings) →
        run parse workspace arguments = .ok outcome →
          ReportsOnce parse workspace invocation settings paths outcome) ∧
    ((∀ path ∈ paths, ∃ route, workspace.files.locate workspace.directory path = .ok route) →
      paths.Pairwise (workspace.files.Apart workspace.directory) →
        AllSpelledAlike workspace.files workspace.directory given) := by
  refine ⟨fun alike => ?_, allSpelledAlike_of_apart plain found⟩
  have apart := apart_of_allSpelledAlike plain found alike
  refine ⟨apart, fun parse arguments invocation events settings outcome read same loaded ran => ?_⟩
  subst same
  obtain ⟨whole, done, output, files⟩ := exists_perform_of_run read ran
  obtain ⟨reports, inStep⟩ := exists_inStep loaded found apart done
  refine ⟨reports, output ▸ files ▸ inStep, ?_⟩
  rw [inStep.paths_eq]
  exact apart.filter _

section LoneFile

def loneFile : FileSystem where
  root := .directory [("a.js", .file (some "a_b"))]

theorem plain_loneFile : loneFile.root.Plain :=
  .directory (by decide) (by decide) (by simpa using .file _)

theorem locate_loneFile :
    loneFile.locate [] ⟨"./a.js"⟩ = .ok ["a.js"] ∧ loneFile.locate [] ⟨"a.js"⟩ = .ok ["a.js"] := by
  have locate {path : Pathname} {names : Route} :=
    @FileSystem.locate_of_leads loneFile plain_loneFile [] ["a.js"] path names
  have own : loneFile.Leads [] ["a.js"] ["a.js"] :=
    @FileSystem.Leads.file loneFile [] "a.js" (by decide) (by decide) _ rfl
  exact ⟨locate (by decide) rfl (.step rfl own), locate (by decide) rfl own⟩

theorem discover_loneFile :
    discover loneFile [] [⟨"./a.js"⟩, ⟨"a.js"⟩] = .ok [⟨"./a.js"⟩, ⟨"a.js"⟩] := by
  have file (path : Pathname) (located : loneFile.locate [] path = .ok ["a.js"]) :
      expand loneFile [] path = .ok [path] := by
    have found := FileSystem.find_eq_ok_iff.2 ⟨_, located, rfl⟩
    simp only [expand, found]
  have expanded : [Pathname.mk "./a.js", ⟨"a.js"⟩].mapM (expand loneFile []) =
      .ok [[⟨"./a.js"⟩], [⟨"a.js"⟩]] :=
    mapM_eq_ok_iff.2 (.cons (file _ locate_loneFile.1) (.cons (file _ locate_loneFile.2) .nil))
  have sorted : [Pathname.mk "./a.js", ⟨"a.js"⟩].Pairwise
      fun path other => path.precedes other := by
    decide
  have flat : [[Pathname.mk "./a.js"], [⟨"a.js"⟩]].flatten = [⟨"./a.js"⟩, ⟨"a.js"⟩] := rfl
  simp only [discover, expanded, bind, Except.bind, flat, List.mergeSort_of_pairwise sorted]
  rfl

/-- A file that is named in two ways is found twice. -/
theorem not_always_each_file_once :
    ¬ ∀ (files : FileSystem) (directory : Route) (arguments paths : List Pathname),
      files.root.Plain → (∀ argument ∈ arguments, IsPresent files directory argument) →
        discover files directory arguments = .ok paths →
          paths.Pairwise (files.Apart directory) := by
  intro always
  have present := exists_discover_iff.1 ⟨_, discover_loneFile⟩
  have apart := always loneFile [] _ _ plain_loneFile present discover_loneFile
  exact List.rel_of_pairwise_cons apart List.mem_cons_self ["a.js"] locate_loneFile.1
    locate_loneFile.2

end LoneFile

section Project

def projectWorkspace : Workspace where
  files := project
  directory := []

theorem loadSettings_project :
    projectWorkspace.loadSettings { paths := projectPaths } = .ok ([], {}) := by
  have path : projectWorkspace.directoryPath.join Workspace.settingsName = ⟨"/camelint.toml"⟩ := by
    decide
  have none : projectWorkspace.files.isFile projectWorkspace.directory ⟨"/camelint.toml"⟩ =
      false := by
    rw [FileSystem.isFile]
    cases found : projectWorkspace.files.find projectWorkspace.directory ⟨"/camelint.toml"⟩ with
    | error reason => rfl
    | ok entry =>
        obtain ⟨route, located, stands⟩ := FileSystem.find_eq_ok_iff.1 found
        obtain ⟨-, -, leads⟩ := (FileSystem.locate_eq_ok_iff plain_project).1 located
        have steps : FileSystem.stepsOf ⟨"/camelint.toml"⟩ = ["camelint.toml"] := by decide
        have start : (if (Pathname.mk "/camelint.toml").isAbsolute then []
            else projectWorkspace.directory) = [] := ite_self _
        rw [steps, start] at leads
        obtain ⟨-, rfl⟩ := leads.of_not_entered (by decide)
        cases stands
  simp only [Workspace.loadSettings, Workspace.findSettings, path, none]
  rfl

theorem locate_projectFiles :
    ∀ path ∈ projectFiles, ∃ route, project.locate [] path = .ok route := by
  have locate {path : Pathname} {names : Route} {route : Route} :=
    @FileSystem.locate_of_leads project plain_project [] route path names
  have source : project.enter [] "src" = some ["src"] := by decide
  have deep : project.enter ["src"] "deep" = some ["src", "deep"] := by decide
  have package : project.enter ["src"] "node_modules" = some ["src", "node_modules"] := by decide
  simp only [projectFiles, List.forall_mem_cons, List.not_mem_nil, false_implies, implies_true,
    and_true]
  refine ⟨⟨_, locate_project.1⟩,
    ⟨["src", ".eslintrc.js"], locate (by decide) rfl (.step source ?_)⟩,
    ⟨["src", "deep", "c.mjs"], locate (by decide) rfl (.step source (.step deep ?_))⟩,
    ⟨["src", "node_modules", "lib.js"],
      locate (by decide) rfl (.step source (.step package ?_))⟩⟩
  · exact .file (by decide) (by decide) rfl
  · exact .file (by decide) (by decide) rfl
  · exact .file (by decide) (by decide) rfl

/-- A directory, one below it and a package among it, all spelled from where the run takes place. -/
theorem each_file_once_project :
    projectWorkspace.files.root.Plain ∧
    discover projectWorkspace.files projectWorkspace.directory projectPaths = .ok projectFiles ∧
    AllSpelledAlike projectWorkspace.files projectWorkspace.directory projectPaths ∧
    projectFiles.Pairwise (projectWorkspace.files.Apart projectWorkspace.directory) ∧
    (∀ path ∈ projectFiles, ∃ route, projectWorkspace.files.locate projectWorkspace.directory path =
      .ok route) ∧
    Invocation.ofArguments ["notes.txt", "src", "src//deep/.", "src/node_modules"] =
      .ok { paths := projectPaths } ∧
    projectWorkspace.loadSettings { paths := projectPaths } = .ok ([], {}) ∧
    ∃ outcome, run parseLoneName projectWorkspace
        ["notes.txt", "src", "src//deep/.", "src/node_modules"] = .ok outcome ∧
      ReportsOnce parseLoneName projectWorkspace { paths := projectPaths } {} projectFiles
        outcome := by
  have read : Invocation.ofArguments ["notes.txt", "src", "src//deep/.", "src/node_modules"] =
      .ok { paths := projectPaths } := by decide
  have spelled : ∀ argument ∈ projectPaths, ∃ names : Route,
      argument.parts = [] ++ names.map .named := by
    simp only [projectPaths, List.forall_mem_cons, List.not_mem_nil, false_implies, implies_true,
      and_true]
    exact ⟨⟨["notes.txt"], by decide⟩, ⟨["src"], by decide⟩, ⟨["src", "deep"], by decide⟩,
      ⟨["src", "node_modules"], by decide⟩⟩
  have alike := @allSpelledAlike_of_base project [] plain_project projectPaths [] spelled
  obtain ⟨once, back⟩ := each_file_once_of_spelledAlike projectWorkspace plain_project projectPaths
    projectFiles discover_project
  obtain ⟨apart, runs⟩ := once alike
  obtain ⟨whole, done⟩ := exists_perform loadSettings_project discover_project
    wellFormed_parseLoneName
  obtain ⟨events, ran⟩ := exists_run_of_perform read done
  exact ⟨plain_project, discover_project, back locate_projectFiles apart, apart,
    locate_projectFiles, read, loadSettings_project, _, ran,
    runs parseLoneName _ _ _ _ _ read rfl loadSettings_project ran⟩

end Project

end NameLint.Command
