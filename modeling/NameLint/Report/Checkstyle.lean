import NameLint.Markup.Element
import NameLint.Report.FileReport

/-!
# The checkstyle report

A document with one element for each file and, inside it, one for each diagnostic.
-/

namespace NameLint.Checkstyle

open NameLint.Files NameLint.Markup NameLint.Source

set_option autoImplicit false

def errorElement (found : Location × Diagnostic) : Element :=
  .leaf "error"
    [⟨"line", found.1.line.render⟩, ⟨"column", found.1.column.render⟩, ⟨"severity", "error"⟩,
     ⟨"message", found.2.violation.body⟩, ⟨"source", "camelint." ++ found.2.violation.name⟩]

def fileElement (directory : Route) (report : FileReport) : Except Fault Element := do
  return .block "file" [⟨"name", report.shownPath directory⟩] ((← report.located).map errorElement)

def document (directory : Route) (reports : List FileReport) : Except Fault Element := do
  return .block "checkstyle" [⟨"version", "4.3"⟩] (← reports.mapM (fileElement directory))

def lines (directory : Route) (reports : List FileReport) : Except Fault (List String) := do
  return documentLines (← document directory reports)

end NameLint.Checkstyle
