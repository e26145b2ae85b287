import NameLint.Command.Run
import NameLint.Proofs.Settings.Format

/-!
# Loading the settings of a run

The settings file of a run is the one that is named or, where none is named, the one of the working
directory, if that is a file. The run fails to load its settings exactly if there is such a file and
it cannot be used. Otherwise the settings are those of the file, or none, with the mode of the
command line in place of theirs.
-/

namespace NameLint.Command

open NameLint.Files NameLint.Settings

set_option autoImplicit false

inductive SettingsAt (workspace : Workspace) (invocation : Invocation) : Pathname → Prop where
  | named {path : Pathname} (named : invocation.config = some path) :
      SettingsAt workspace invocation path
  | found {content : Option String} (unnamed : invocation.config = none)
      (file : workspace.files.find workspace.directory
        (workspace.directoryPath.join Workspace.settingsName) = .ok (.file content)) :
      SettingsAt workspace invocation (workspace.directoryPath.join Workspace.settingsName)

def HoldsText (workspace : Workspace) (path : Pathname) (text : String) : Prop :=
  workspace.files.find workspace.directory path = .ok (.file (some text))

/-- A settings file cannot be used if there is no file or its bytes are no text, if the text is no
document, and if the document is not of the format of settings. -/
inductive Unusable (workspace : Workspace) (path : Pathname) : Prop where
  | unreadable (none : ∀ text, ¬HoldsText workspace path text)
  | malformed {text : String} (read : HoldsText workspace path text)
      (none : Toml.parse? text = none)
  | misshapen {text : String} {document : Toml.Table} (read : HoldsText workspace path text)
      (parsed : Toml.parse? text = some document) (unfit : ¬IsAccepted document)

/-- What the settings file of a run says, if the run has one. -/
inductive Written (workspace : Workspace) (invocation : Invocation) : Settings → Prop where
  | inFile {path : Pathname} {text : String} {document : Toml.Table} {settings : Settings}
      (own : SettingsAt workspace invocation path) (read : HoldsText workspace path text)
      (parsed : Toml.parse? text = some document) (decoded : decode document = .ok settings) :
      Written workspace invocation settings
  | nowhere (none : ∀ path, ¬SettingsAt workspace invocation path) :
      Written workspace invocation {}

/-- The settings are as written, but the mode of the command line takes the place of theirs. -/
structure Loads (workspace : Workspace) (invocation : Invocation) (written settings : Settings) :
    Prop where
  origin : Written workspace invocation written
  kept : invocation.properties = none → settings = written
  replaced : ∀ mode, invocation.properties = some mode →
    settings = written.setOption Naming.ruleName Registry.propertiesOption mode

variable {workspace : Workspace} {invocation : Invocation} {path : Pathname} {settings : Settings}

section OneFile

theorem HoldsText.unique {text other : String} (read : HoldsText workspace path text)
    (again : HoldsText workspace path other) : text = other := by
  rw [HoldsText, read, Except.ok.injEq, Entry.file.injEq, Option.some.injEq] at again
  exact again

theorem read_eq_ok_iff_holdsText {text : String} :
    workspace.files.read workspace.directory path = .ok text ↔ HoldsText workspace path text := by
  rw [HoldsText, FileSystem.read]
  cases workspace.files.find workspace.directory path with
  | error reason => simp [bind, Except.bind]
  | ok entry => rcases entry with ⟨_ | own⟩ | entries | target <;> simp [bind, Except.bind]

theorem loadFile_of_holdsText {text : String} (read : HoldsText workspace path text) :
    workspace.loadFile path = ofText path.shown text := by
  rw [Workspace.loadFile, read_eq_ok_iff_holdsText.2 read]

theorem loadFile_eq_ok_iff : workspace.loadFile path = .ok settings ↔
    ∃ text document, HoldsText workspace path text ∧ Toml.parse? text = some document ∧
      decode document = .ok settings := by
  constructor
  · intro loaded
    cases read : workspace.files.read workspace.directory path with
    | error reason =>
        rw [Workspace.loadFile, read] at loaded
        cases loaded
    | ok text =>
        have holds := read_eq_ok_iff_holdsText.1 read
        rw [loadFile_of_holdsText holds, ofText] at loaded
        cases parsed : Toml.parse? text with
        | none =>
            rw [parsed] at loaded
            cases loaded
        | some document =>
            refine ⟨text, document, holds, parsed, ?_⟩
            simp only [parsed] at loaded
            cases decoded : decode document with
            | error problem =>
                rw [decoded] at loaded
                cases loaded
            | ok own =>
                rw [decoded] at loaded
                cases loaded
                rfl
  · intro able
    obtain ⟨text, document, holds, parsed, decoded⟩ := able
    rw [loadFile_of_holdsText holds, ofText_of_parse? parsed, decoded]
    rfl

theorem unusable_iff :
    Unusable workspace path ↔ ∀ settings, workspace.loadFile path ≠ .ok settings := by
  constructor
  · rintro unusable settings loaded
    obtain ⟨text, document, holds, parsed, decoded⟩ := loadFile_eq_ok_iff.1 loaded
    cases unusable with
    | unreadable none => exact none text holds
    | malformed read none =>
        rw [read.unique holds, parsed] at none
        cases none
    | misshapen read own unfit =>
        rw [read.unique holds, parsed, Option.some.injEq] at own
        exact unfit (exists_decode_iff_isAccepted.1 ⟨settings, own ▸ decoded⟩)
  · intro fails
    by_cases readable : ∃ text, HoldsText workspace path text
    · obtain ⟨text, holds⟩ := readable
      cases parsed : Toml.parse? text with
      | none => exact .malformed holds parsed
      | some document =>
          refine .misshapen holds parsed fun accepted => ?_
          obtain ⟨settings, decoded⟩ := exists_decode_iff_isAccepted.2 accepted
          exact fails settings (loadFile_eq_ok_iff.2 ⟨text, document, holds, parsed, decoded⟩)
    · exact .unreadable (not_exists.1 readable)

end OneFile

section Run

theorem findSettings_of_settingsAt (own : SettingsAt workspace invocation path) :
    (workspace.findSettings invocation.config).map (·.2) = workspace.loadFile path := by
  cases own with
  | named named =>
      simp only [Workspace.findSettings, named]
      cases workspace.loadFile path <;> rfl
  | found unnamed file =>
      have there : workspace.files.isFile workspace.directory
          (workspace.directoryPath.join Workspace.settingsName) = true := by
        rw [FileSystem.isFile, file]
      simp only [Workspace.findSettings, unnamed, there, if_true]
      cases workspace.loadFile (workspace.directoryPath.join Workspace.settingsName) <;> rfl

theorem findSettings_of_none (none : ∀ path, ¬SettingsAt workspace invocation path) :
    workspace.findSettings invocation.config = .ok ([], {}) := by
  have unnamed : invocation.config = Option.none :=
    Option.eq_none_iff_forall_not_mem.2 fun path named => none path (.named named)
  have absent : workspace.files.isFile workspace.directory
      (workspace.directoryPath.join Workspace.settingsName) = false := by
    rw [FileSystem.isFile]
    split
    · next content file => exact absurd (.found unnamed file) (none _)
    · rfl
  simp only [Workspace.findSettings, unnamed, absent, Bool.false_eq_true, if_false]
  rfl

theorem exists_findSettings_error_iff :
    (∃ error, workspace.findSettings invocation.config = .error error) ↔
      ∃ path, SettingsAt workspace invocation path ∧ Unusable workspace path := by
  constructor
  · intro ⟨error, failed⟩
    by_cases some : ∃ path, SettingsAt workspace invocation path
    · obtain ⟨path, own⟩ := some
      have same := findSettings_of_settingsAt own
      rw [failed] at same
      refine ⟨path, own, unusable_iff.2 fun settings loaded => ?_⟩
      rw [loaded] at same
      cases same
    · rw [findSettings_of_none (not_exists.1 some)] at failed
      cases failed
  · intro ⟨path, own, unusable⟩
    have same := findSettings_of_settingsAt own
    cases found : workspace.findSettings invocation.config with
    | error error => exact ⟨error, rfl⟩
    | ok answer =>
        rw [found] at same
        exact absurd same.symm (unusable_iff.1 unusable answer.2)

/-- Loading fails exactly if there is a settings file that cannot be used. -/
theorem exists_loadSettings_error_iff :
    (∃ error, workspace.loadSettings invocation = .error error) ↔
      ∃ path, SettingsAt workspace invocation path ∧ Unusable workspace path := by
  rw [← exists_findSettings_error_iff, Workspace.loadSettings]
  cases workspace.findSettings invocation.config with
  | error error => simp [bind, Except.bind]
  | ok found => cases invocation.properties <;> simp [bind, Except.bind, pure, Except.pure]

variable {events : List Event}

theorem written_of_findSettings
    (found : workspace.findSettings invocation.config = .ok (events, settings)) :
    Written workspace invocation settings := by
  by_cases some : ∃ path, SettingsAt workspace invocation path
  · obtain ⟨path, own⟩ := some
    have loaded := findSettings_of_settingsAt own
    rw [found] at loaded
    obtain ⟨text, document, holds, parsed, decoded⟩ := loadFile_eq_ok_iff.1 loaded.symm
    exact .inFile own holds parsed decoded
  · rw [findSettings_of_none (not_exists.1 some)] at found
    cases found
    exact .nowhere (not_exists.1 some)

theorem exists_loads (loaded : workspace.loadSettings invocation = .ok (events, settings)) :
    ∃ written, Loads workspace invocation written settings := by
  obtain ⟨⟨used, written⟩, found, rest⟩ := exists_of_bind_eq_ok loaded
  refine ⟨written, written_of_findSettings found, ?_, ?_⟩
  · intro none
    rw [none] at rest
    cases rest
    rfl
  · intro mode some
    rw [some] at rest
    cases rest
    rfl

end Run

end NameLint.Command
