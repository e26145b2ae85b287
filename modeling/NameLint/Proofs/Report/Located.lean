import NameLint.Proofs.Fault
import NameLint.Proofs.Source.LineIndex
import NameLint.Report.FileReport

/-!
# Where diagnostics are

A report gives each of its diagnostics the location at which it starts in the source of the report.
-/

namespace NameLint

open NameLint.Text NameLint.Source

set_option autoImplicit false

variable {report : FileReport} {located : List (Location × Diagnostic)}

theorem located_eq_ok_iff : report.located = .ok located ↔
    List.Forall₂ (fun diagnostic shown =>
      (LineIndex.ofText report.source).location diagnostic.span.start report.source = .ok shown.1 ∧
        shown.2 = diagnostic) report.diagnostics located := by
  rw [FileReport.located, mapM_eq_ok_iff, iff_iff_eq]
  congr 1
  funext diagnostic shown
  cases (LineIndex.ofText report.source).location diagnostic.span.start report.source with
  | error fault => simp [bind, Except.bind]
  | ok place => simp [bind, Except.bind, pure, Except.pure, Prod.ext_iff, eq_comm]

theorem located_eq (found : report.located = .ok located) :
    located.map (·.2) = report.diagnostics ∧ ∀ pair ∈ located,
      (LineIndex.ofText report.source).location pair.2.span.start report.source = .ok pair.1 := by
  have pairs := located_eq_ok_iff.1 found
  clear found
  generalize report.diagnostics = diagnostics at *
  induction pairs with
  | nil => exact ⟨rfl, fun pair member => absurd member List.not_mem_nil⟩
  | cons own _ ih =>
      constructor
      · rw [List.map_cons, own.2, ih.1]
      · intro pair member
        rcases List.mem_cons.1 member with rfl | later
        · rw [own.2]
          exact own.1
        · exact ih.2 pair later

theorem exists_located
    (bounded : ∀ diagnostic ∈ report.diagnostics, IsBoundary report.source diagnostic.span.start) :
    ∃ located, report.located = .ok located := by
  rw [FileReport.located, exists_mapM_eq_ok_iff]
  intro diagnostic member
  apply exists_bind_eq_ok
  · obtain ⟨_, middle, _, -, -, -, location⟩ := LineIndex.location_eq (bounded diagnostic member)
    exact ⟨_, location⟩
  · exact fun _ _ => ⟨_, rfl⟩

end NameLint
