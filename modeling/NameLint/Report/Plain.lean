import NameLint.Report.FileReport

/-!
# The plain report

One line for each diagnostic and a summary. A mark shows which diagnostics would be fixed at the
level that the run is allowed; the summary also counts those that take another level.
-/

namespace NameLint.Plain

open NameLint.Files NameLint.Source

set_option autoImplicit false

def isFixable (required : Applicability) (diagnostic : Diagnostic) : Bool :=
  diagnostic.fix.any (·.applies required)

/-- Whether a diagnostic would be fixed if the user asked for more. -/
def isHeldBack (required : Applicability) (diagnostic : Diagnostic) : Bool :=
  !isFixable required diagnostic && isFixable .optIn diagnostic

def line (required : Applicability) (path : String) (found : Location × Diagnostic) : String :=
  path ++ ":" ++ found.1.render ++ ": " ++ found.2.violation.body ++
    (if isFixable required found.2 then " [*]" else "")

structure Summary where
  remaining : Nat
  fixable : Nat
  heldBack : Nat
  fixed : Nat
deriving DecidableEq, Repr

def Summary.ofReports (required : Applicability) (reports : List FileReport) : Summary :=
  let diagnostics := reports.flatMap (·.diagnostics)
  { remaining := diagnostics.length
    fixable := diagnostics.countP (isFixable required)
    heldBack := diagnostics.countP (isHeldBack required)
    fixed := reports.foldl (fun fixed report => fixed + report.fixed) 0 }

/-- A remark on a number, unless it is zero. -/
def remark (before : String) (number : Nat) (after : String) : String :=
  if number = 0 then "" else before ++ toString number ++ after

def Summary.lines (summary : Summary) : List String :=
  let fixed :=
    if summary.fixed = 0 then [] else ["Fixed " ++ toString summary.fixed ++ " problem(s)."]
  let found :=
    if summary.remaining = 0 then
      if summary.fixed = 0 then ["All checks passed!"] else []
    else
      ["Found " ++ toString summary.remaining ++ " problem(s)" ++
        remark " (" summary.fixable " fixable with --fix)" ++
        remark " (" summary.heldBack " fixable with --fix --unsafe-fixes)" ++ "."]
  fixed ++ found

def reportLines (required : Applicability) (directory : Route) (report : FileReport) :
    Except Fault (List String) := do
  return (← report.located).map (line required (report.shownPath directory))

def lines (required : Applicability) (directory : Route) (reports : List FileReport) :
    Except Fault (List String) := do
  let found ← reports.mapM (reportLines required directory)
  return found.flatten ++ (Summary.ofReports required reports).lines

end NameLint.Plain
