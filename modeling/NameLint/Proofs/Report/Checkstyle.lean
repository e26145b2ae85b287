import NameLint.Proofs.Files.RawText
import NameLint.Proofs.Lint.Finding
import NameLint.Proofs.Markup.Reader
import NameLint.Proofs.Report.Located
import NameLint.Report.Checkstyle

/-!
# The checkstyle report is read back

A reader of the report finds the elements of files and, in them, those of errors, and takes the
values of their attributes. It gets back what the report was made of: every file with its path, also
one without errors, and every diagnostic with its place, its text and its name, all in order.
-/

namespace NameLint.Checkstyle

open NameLint.Text NameLint.Files NameLint.Source NameLint.Markup NameLint.Command

set_option autoImplicit false

section Reading

structure ErrorEntry where
  line : Nat
  column : Nat
  message : String
  source : String
deriving DecidableEq, Repr

structure FileEntry where
  name : String
  errors : List ErrorEntry
deriving DecidableEq, Repr

def valueOf (attributes : List Attribute) (name : String) : Option String :=
  (attributes.find? (·.name == name)).map (·.value)

def numberOf (text : String) : Option Nat :=
  if text.toList ≠ [] ∧ text.toList.all Char.isDigit then
    some (Nat.ofDigitChars 10 text.toList 0)
  else none

/-- The parts of an element. One without content has no children. -/
def parts : Element → String × List Attribute × List Element
  | .leaf name attributes => (name, attributes, [])
  | .block name attributes children => (name, attributes, children)

def readError (element : Element) : Option ErrorEntry := do
  let (name, attributes, _) := parts element
  if name = "error" then
    return {
      line := ← numberOf (← valueOf attributes "line")
      column := ← numberOf (← valueOf attributes "column")
      message := ← valueOf attributes "message"
      source := ← valueOf attributes "source" }
  else none

def readFile (element : Element) : Option FileEntry := do
  let (name, attributes, children) := parts element
  if name = "file" then
    return { name := ← valueOf attributes "name", errors := ← children.mapM readError }
  else none

/-- What a report tells, file by file. -/
def readReport (text : String) : Option (List FileEntry) := do
  let (name, _, children) := parts (← readDocument text)
  if name = "checkstyle" then children.mapM readFile else none

theorem numberOf_repr (number : Nat) : numberOf number.repr = some number := by
  have plain : (Nat.toDigits 10 number).all Char.isDigit :=
    List.all_eq_true.2 fun c member => Nat.isDigit_of_mem_toDigits (by decide) (by decide) member
  rw [numberOf, Nat.toList_repr, if_pos ⟨Nat.toDigits_ne_nil, plain⟩,
    Nat.ofDigitChars_toDigits (by decide) (by decide)]

end Reading

def entryOf (found : Location × Diagnostic) : ErrorEntry where
  line := found.1.line.number
  column := found.1.column.number
  message := found.2.violation.body
  source := "camelint." ++ found.2.violation.name

/-- The entry tells all that the report on a file holds, and no more. -/
structure Tells (directory : Route) (report : FileReport) (entry : FileEntry) : Prop where
  name_eq : entry.name = report.shownPath directory
  errors : List.Forall₂ (fun diagnostic error => ∃ location,
    (LineIndex.ofText report.source).location diagnostic.span.start report.source = .ok location ∧
      error = entryOf (location, diagnostic)) report.diagnostics entry.errors

theorem readError_errorElement (found : Location × Diagnostic) :
    readError (errorElement found) = some (entryOf found) := by
  simp [readError, errorElement, parts, valueOf, Ordinal.render, entryOf, numberOf_repr]

theorem mapM_readError (located : List (Location × Diagnostic)) :
    (located.map errorElement).mapM readError = some (located.map entryOf) := by
  induction located with
  | nil => rfl
  | cons found rest ih =>
      rw [List.map_cons, List.mapM_cons, readError_errorElement, ih]
      rfl

theorem errorElement_isNamed (found : Location × Diagnostic) : (errorElement found).IsNamed := by
  have names : ∀ name ∈ ["line", "column", "severity", "message", "source"], IsName name := by
    decide
  exact .leaf (by decide) fun pair member => names pair.name (List.mem_map_of_mem member)

section Files

variable {directory : Route}

theorem tells_located {report : FileReport} {located : List (Location × Diagnostic)}
    (found : report.located = .ok located) :
    Tells directory report ⟨report.shownPath directory, located.map entryOf⟩ where
  name_eq := rfl
  errors := by
    rw [List.forall₂_map_right_iff]
    apply (located_eq_ok_iff.1 found).imp
    rintro diagnostic ⟨location, shown⟩ ⟨placed, rfl⟩
    exact ⟨location, placed, rfl⟩

theorem Tells.unique {report : FileReport} {entry other : FileEntry}
    (tells : Tells directory report entry) (again : Tells directory report other) :
    entry = other := by
  have errors : entry.errors = other.errors := by
    refine List.right_unique_forall₂' ?_ tells.errors again.errors
    rintro diagnostic _ _ ⟨location, placed, rfl⟩ ⟨location', placed', rfl⟩
    rw [placed, Except.ok.injEq] at placed'
    rw [placed']
  cases entry
  cases other
  cases errors
  cases tells.name_eq.trans again.name_eq.symm
  rfl

theorem exists_fileElement {report : FileReport} (bounded : ∀ diagnostic ∈ report.diagnostics,
      IsBoundary report.source diagnostic.span.start) :
    ∃ element entry, fileElement directory report = .ok element ∧ element.IsNamed ∧
      readFile element = some entry ∧ Tells directory report entry := by
  obtain ⟨located, found⟩ := exists_located bounded
  have made : fileElement directory report = .ok (.block "file"
      [⟨"name", report.shownPath directory⟩] (located.map errorElement)) := by
    rw [fileElement, found]
    rfl
  refine ⟨_, _, made, ?_, ?_, tells_located found⟩
  · refine .block (by decide) ?_ ?_
    · intro pair member
      rw [List.mem_singleton.1 member]
      exact (by decide : IsName "name")
    · intro child member
      obtain ⟨pair, -, rfl⟩ := List.mem_map.1 member
      exact errorElement_isNamed pair
  · simp only [readFile, parts, mapM_readError]
    rfl

theorem exists_fileElements {reports : List FileReport} (bounded : ∀ report ∈ reports,
      ∀ diagnostic ∈ report.diagnostics, IsBoundary report.source diagnostic.span.start) :
    ∃ elements entries, reports.mapM (fileElement directory) = .ok elements ∧
      (∀ element ∈ elements, element.IsNamed) ∧ elements.mapM readFile = some entries ∧
      List.Forall₂ (Tells directory) reports entries := by
  induction reports with
  | nil => exact ⟨[], [], rfl, by simp, rfl, .nil⟩
  | cons report rest ih =>
      obtain ⟨element, entry, made, named, read, tells⟩ :=
        @exists_fileElement directory report (bounded report List.mem_cons_self)
      obtain ⟨elements, entries, others, allNamed, reads, allTell⟩ :=
        ih fun other member => bounded other (List.mem_cons_of_mem report member)
      refine ⟨element :: elements, entry :: entries, ?_, ?_, ?_, .cons tells allTell⟩
      · rw [List.mapM_cons, made, others]
        rfl
      · exact List.forall_mem_cons.2 ⟨named, allNamed⟩
      · rw [List.mapM_cons, read, reads]
        rfl

end Files

theorem readReport_documentLines {elements : List Element}
    (named : ∀ element ∈ elements, element.IsNamed) :
    readReport (joinLines (documentLines (.block "checkstyle" [⟨"version", "4.3"⟩] elements))) =
      elements.mapM readFile := by
  have root : (Element.block "checkstyle" [⟨"version", "4.3"⟩] elements).IsNamed := by
    refine .block (by decide) ?_ named
    intro pair member
    rw [List.mem_singleton.1 member]
    exact (by decide : IsName "version")
  rw [readReport, readDocument_documentLines root]
  rfl

theorem exists_tells_of_lines {directory : Route} {reports : List FileReport}
    {printed : List String}
    (bounded : ∀ report ∈ reports, ∀ diagnostic ∈ report.diagnostics,
      IsBoundary report.source diagnostic.span.start)
    (done : lines directory reports = .ok printed) :
    ∃ entries, readReport (joinLines printed) = some entries ∧
      List.Forall₂ (Tells directory) reports entries := by
  obtain ⟨elements, entries, made, named, reads, tells⟩ :=
    @exists_fileElements directory reports bounded
  rw [lines, document, made] at done
  cases done
  exact ⟨entries, (readReport_documentLines named).trans reads, tells⟩

/-- A path and a text that hold what markup is made of. -/
def awkwardReport : FileReport where
  path := ⟨"/work/a<\"b\">&'c'.js"⟩
  source := "é\na_b"
  diagnostics := [⟨Naming.notInCamelCase "a_b" "aB", spanAt 3 3, none⟩,
    ⟨{ name := "<&>", body := "\"/>" }, spanAt 6 0, none⟩]

def cleanReport : FileReport where
  path := ⟨"b.js"⟩
  source := ""
  diagnostics := []

end NameLint.Checkstyle
