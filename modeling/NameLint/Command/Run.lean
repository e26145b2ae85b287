import NameLint.Command.Invocation
import NameLint.Command.Threshold
import NameLint.Edit.Splice
import NameLint.Files.Discovery
import NameLint.Lint.Registry
import NameLint.Report.Checkstyle
import NameLint.Report.Plain
import NameLint.Settings.Load

/-!
# Running the linter

A run loads the settings, finds the files, and checks each of them in turn, after fixing it if the
run is to do that. It ends with a report; the exit code tells whether any problem is left. Files
that cannot be read are left out with a warning.
-/

namespace NameLint.Command

open NameLint.Files

set_option autoImplicit false

/-- Where a run takes place. -/
structure Workspace where
  files : FileSystem
  /-- The working directory. -/
  directory : Route
  /-- The setting that the environment has for the log. -/
  log : Option String := none

structure Outcome where
  output : Output
  /-- The events that are shown. -/
  events : List Event := []
  files : FileSystem

namespace Workspace

def settingsName : String := "camelint.toml"

def directoryPath (workspace : Workspace) : Pathname :=
  ⟨⟨slash :: (Pathname.ofSegments workspace.directory).text.bytes⟩⟩

def loadFile (workspace : Workspace) (path : Pathname) : Except Settings.LoadError Settings :=
  match workspace.files.read workspace.directory path with
  | .ok text => Settings.ofText path.shown text
  | .error reason => .error (.unreadable path.shown reason.message)

/-- Loads the settings file that is named or, failing that, the one in the working directory. -/
def findSettings (workspace : Workspace) (config : Option Pathname) :
    Except Settings.LoadError (List Event × Settings) := do
  match config with
  | some path => return ([], ← workspace.loadFile path)
  | none =>
      let path := workspace.directoryPath.join settingsName
      if workspace.files.isFile workspace.directory path then
        let settings ← workspace.loadFile path
        let used : Event :=
          { level := .debug, message := "using configuration file",
            fields := [("path", path.shown)] }
        return ([used], settings)
      else return ([], {})

def loadSettings (workspace : Workspace) (invocation : Invocation) :
    Except Settings.LoadError (List Event × Settings) := do
  let (events, settings) ← workspace.findSettings invocation.config
  match invocation.properties with
  | none => return (events, settings)
  | some mode =>
      return (events, settings.setOption Naming.ruleName Registry.propertiesOption mode)

def unopenedEvent (path : Pathname) : Event :=
  { level := .warn, message := "skipping unreadable entry",
    fields := [("error", "IO error for operation on " ++ path.shown ++ ": " ++
      AccessError.nameTooLong.message)] }

def searchEvents (workspace : Workspace) (paths : List Pathname) : List Event :=
  (unopened workspace.files workspace.directory paths).map unopenedEvent

end Workspace

/-! Checking files -/

def Invocation.level (invocation : Invocation) : Applicability :=
  if invocation.unsafeFixes then .optIn else .safe

/-- How a file is checked, and fixed where there is a level to fix at. -/
structure Checker where
  parse : String → Tree
  linter : Linter
  directory : Route
  required : Option Applicability := none

structure Progress where
  files : FileSystem
  events : List Event := []
  reports : List FileReport := []

def Progress.log (progress : Progress) (events : List Event) : Progress :=
  { progress with events := progress.events ++ events }

def foundEvent (source : String) (diagnostic : Diagnostic) : Except Fault Event := do
  return {
    level := .trace, message := "camelcase violation"
    fields := [("name", ← diagnostic.span.text source), ("range", diagnostic.span.render)] }

def syntaxEvents (tree : Tree) : List Event :=
  if tree.hasErrors then
    [{ level := .debug, message := "source has syntax errors, checking the recovered tree" }]
  else []

namespace Checker

def check (checker : Checker) (source : String) :
    Except Fault (List Event × List Diagnostic) := do
  let tree := checker.parse source
  let diagnostics ← checker.linter.check source tree
  return (syntaxEvents tree ++ (← diagnostics.mapM (foundEvent source)), diagnostics)

def fixFile (checker : Checker) (required : Applicability) (progress : Progress)
    (report : FileReport) : Except Fault (Progress × FileReport) := do
  let result ← applyFixes report.source report.diagnostics required
  if result.count = 0 then return (progress, report)
  else
    let files := progress.files.write checker.directory report.path result.code
    let (events, diagnostics) ← checker.check result.code
    let applied : Event :=
      { level := .debug, message := "applied fixes",
        fields := [("path", report.path.shown), ("fixed", toString result.count)] }
    let fixed : FileReport :=
      { path := report.path, source := result.code, diagnostics, fixed := result.count }
    return ({ progress with files }.log (applied :: events), fixed)

def checkFile (checker : Checker) (progress : Progress) (path : Pathname) :
    Except Fault Progress := do
  match progress.files.read checker.directory path with
  | .error reason =>
      return progress.log
        [{ level := .warn, message := "skipping unreadable file",
           fields := [("path", path.shown), ("error", reason.message)] }]
  | .ok source =>
      let (events, diagnostics) ← checker.check source
      let checked : Event :=
        { level := .debug, message := "checked",
          fields := [("path", path.shown), ("violations", toString diagnostics.length)] }
      let progress := progress.log (events ++ [checked])
      let report : FileReport := { path, source, diagnostics }
      let (progress, report) ←
        match checker.required with
        | none => pure (progress, report)
        | some required => checker.fixFile required progress report
      return { progress with reports := progress.reports ++ [report] }

def checkFiles (checker : Checker) (progress : Progress) (paths : List Pathname) :
    Except Fault Progress :=
  paths.foldlM checker.checkFile progress

end Checker

/-! Whole runs -/

def reportLines (invocation : Invocation) (directory : Route) (reports : List FileReport) :
    Except Fault (List String) :=
  match invocation.format with
  | .plain => Plain.lines invocation.level directory reports
  | .checkstyle => Checkstyle.lines directory reports

def exitCode (reports : List FileReport) : Nat :=
  if reports.all (·.diagnostics.isEmpty) then 0 else 1

def failure (messages : List String) : Output :=
  { exit := 2, stderr := joinLines ["error: " ++ ": ".intercalate messages] }

/-- Runs as asked, and shows all events. -/
def perform (parse : String → Tree) (workspace : Workspace) (invocation : Invocation) :
    Except Fault Outcome := do
  let { files, directory, .. } := workspace
  match workspace.loadSettings invocation with
  | .error error => return { output := failure [error.message, error.cause], files }
  | .ok (events, settings) =>
      let searching := workspace.searchEvents invocation.paths
      let events := events ++ Registry.events settings ++ searching
      match discover files directory invocation.paths with
      | .error error => return { output := failure [error.message], events, files }
      | .ok paths =>
          let checking : Event :=
            { level := .info, message := "checking",
              fields := [("files", toString paths.length)] }
          let checker : Checker :=
            { parse, linter := .ofSettings settings, directory,
              required := if invocation.fix then some invocation.level else none }
          let start : Progress := { files, events := events ++ [checking] }
          let progress ← checker.checkFiles start paths
          let lines ← reportLines invocation directory progress.reports
          return {
            output := { exit := exitCode progress.reports, stdout := joinLines lines }
            events := progress.events
            files := progress.files }

def run (parse : String → Tree) (workspace : Workspace) (arguments : List String) :
    Except Fault Outcome := do
  match Invocation.ofArguments arguments with
  | .error ending => return { output := ending.output, files := workspace.files }
  | .ok invocation =>
      let outcome ← perform parse workspace invocation
      let least := threshold workspace.log invocation.verbose
      return { outcome with events := outcome.events.filter (·.passes least) }

end NameLint.Command
