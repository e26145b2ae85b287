import NameLint.Edit.Diagnostic
import NameLint.Files.FileSystem
import NameLint.Source.LineIndex

/-!
# File reports

What a run has to say about one file. Diagnostics refer to the text that the file has when the run
is over. Inside the working directory an absolute path is shown from there on.
-/

namespace NameLint

open NameLint.Files NameLint.Source

set_option autoImplicit false

structure FileReport where
  path : Pathname
  source : String
  diagnostics : List Diagnostic
  /-- How many fixes were written to the file. -/
  fixed : Nat := 0

namespace FileReport

def shownPath (report : FileReport) (directory : Route) : String :=
  (report.path.relativeTo directory).shown

def located (report : FileReport) : Except Fault (List (Location × Diagnostic)) :=
  let index := LineIndex.ofText report.source
  report.diagnostics.mapM fun diagnostic => do
    return (← index.location diagnostic.span.start report.source, diagnostic)

end FileReport

end NameLint
