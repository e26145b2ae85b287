import NameLint.Proofs.Files.Discovery
import NameLint.Proofs.Files.Plain

/-!
# What a search comes to

In a plain file system a search below a directory comes to the JavaScript files to which a way leads
through directories that are not left out, and gives each of them the path of the directory with the
names on that way.
-/

namespace NameLint.Files

set_option autoImplicit false

section Names

theorem isJavaScript_iff {name : RawText} : isJavaScript name ↔ ∃ stem ≠ [],
    ∃ extension ∈ extensions, name.bytes = stem ++ dot :: (extension : RawText).bytes := by
  have plain : ∀ extension ∈ extensions, dot ∉ (extension : RawText).bytes := by decide
  rw [isJavaScript, Option.any_eq_true]
  simp only [Option.bind_eq_some_iff, RawText.text?_eq_some_iff]
  constructor
  · rintro ⟨extension, ⟨_, found, rfl⟩, known⟩
    obtain ⟨-, stem, something, same⟩ := Pathname.exists_stem_of_extensionOf found
    exact ⟨stem, something, extension, by simpa using known, same⟩
  · rintro ⟨stem, something, extension, known, same⟩
    exact ⟨extension,
      ⟨_, Pathname.extensionOf_of_bytes_eq something (plain extension known) same, rfl⟩,
      by simpa using known⟩

example : isJavaScript "a.test.jsx" ∧ isJavaScript "..js" ∧ ¬ isJavaScript ".js" := by decide

def IsHidden (name : RawText) : Prop :=
  name.bytes.head? = some dot

/-- A name that a search goes by when it leaves a directory out. -/
def IsLeftOut (name : RawText) : Prop :=
  name = "node_modules" ∨ IsHidden name ∧ name.IsText

theorem isSkipped_iff {name : RawText} : isSkipped name ↔ IsLeftOut name := by
  have first {text : String} : IsHidden text ↔ text.toList.head? = some '.' :=
    RawText.head?_bytes_ofString (by decide)
  rw [isSkipped, Option.any_eq_true]
  simp only [RawText.text?_eq_some_iff, Bool.or_eq_true, beq_iff_eq, ← first]
  constructor
  · rintro ⟨text, rfl, rfl | hidden⟩
    · exact .inl rfl
    · exact .inr ⟨hidden, text, rfl⟩
  · rintro (rfl | ⟨hidden, text, rfl⟩)
    · exact ⟨_, rfl, .inl rfl⟩
    · exact ⟨text, rfl, .inr hidden⟩

end Names

section Walk

theorem mem_filesIn {path found : Pathname} {entries : List (RawText × Entry)} :
    found ∈ filesIn path entries ↔
      ∃ child ∈ entries, found ∈ filesAt (path.join child.1) child.1 child.2 := by
  induction entries with
  | nil => simp [filesIn]
  | cons child rest ih => simp [filesIn, ih]

theorem mem_filesAt_directory {path found : Pathname} {name : RawText}
    {entries : List (RawText × Entry)} : found ∈ filesAt path name (.directory entries) ↔
      ¬ IsLeftOut name ∧ path.isTooLong = false ∧ found ∈ filesIn path entries := by
  rw [filesAt, List.mem_ite_nil_left, Bool.or_eq_true, not_or, isSkipped_iff, Bool.not_eq_true,
    and_assoc]

theorem isTooLong_of_joinAll {path : Pathname} {below : Route}
    (short : (path.joinAll below).isTooLong = false) : path.isTooLong = false := by
  have grows := Pathname.size_le_size_joinAll path below
  simp only [Pathname.isTooLong, decide_eq_false_iff_not] at short ⊢
  omega

end Walk

section Offers

/-- The entry has a JavaScript file, and no folder on the way there is left out. -/
structure Offers (leftOut : RawText → Prop) (entry : Entry) (folders : Route) (file : RawText) :
    Prop where
  stands : ∃ content, entry.at? (folders ++ [file]) = some (.file content)
  visible : ∀ folder ∈ folders, ¬ leftOut folder
  script : ∃ stem ≠ [], ∃ extension ∈ extensions,
    file.bytes = stem ++ dot :: (extension : RawText).bytes

variable {leftOut : RawText → Prop} {entries : List (RawText × Entry)}
  (distinct : (entries.map (·.1)).Nodup)

include distinct

theorem offers_nil_iff {file : RawText} : Offers leftOut (.directory entries) [] file ↔
    (∃ content, (file, .file content) ∈ entries) ∧ isJavaScript file := by
  have own (content : Option String) :
      (Entry.directory entries).at? ([] ++ [file]) = some (.file content) ↔
        (file, .file content) ∈ entries := by
    rw [← Entry.child?_eq_some_iff distinct, List.nil_append, Entry.at?, Option.bind_eq_some_iff]
    exact ⟨fun ⟨_, found, same⟩ => by cases same; exact found, fun found => ⟨_, found, rfl⟩⟩
  rw [isJavaScript_iff]
  constructor
  · rintro ⟨⟨content, stands⟩, -, script⟩
    exact ⟨⟨content, (own content).1 stands⟩, script⟩
  · rintro ⟨⟨content, member⟩, script⟩
    exact ⟨⟨content, (own content).2 member⟩, List.forall_mem_nil _, script⟩

theorem offers_cons_iff {folder file : RawText} {folders : Route} :
    Offers leftOut (.directory entries) (folder :: folders) file ↔ ¬ leftOut folder ∧
      ∃ below, (folder, .directory below) ∈ entries ∧
        Offers leftOut (.directory below) folders file := by
  constructor
  · rintro ⟨⟨content, stands⟩, visible, script⟩
    obtain ⟨child, own, below⟩ := Option.bind_eq_some_iff.1 stands
    rw [List.forall_mem_cons] at visible
    have member := (Entry.child?_eq_some_iff distinct).1 own
    cases child with
    | directory inside => exact ⟨visible.1, inside, member, ⟨content, below⟩, visible.2, script⟩
    | file content => cases folders <;> cases below
    | link target => cases folders <;> cases below
  · rintro ⟨open_, inside, member, ⟨content, stands⟩, visible, script⟩
    have own := (Entry.child?_eq_some_iff distinct).2 member
    exact ⟨⟨content, Option.bind_eq_some_iff.2 ⟨_, own, stands⟩⟩,
      List.forall_mem_cons.2 ⟨open_, visible⟩, script⟩

omit distinct

theorem Offers.parts_joinAll {entry : Entry} {folders : Route} {file : RawText}
    (offers : Offers leftOut entry folders file) (plain : entry.Plain) (path : Pathname) :
    (path.joinAll (folders ++ [file])).parts = path.parts ++ (folders ++ [file]).map .named := by
  obtain ⟨content, stands⟩ := offers.stands
  exact Pathname.parts_joinAll (plain.entryNames stands) path

end Offers

section Found

/-- A search below a directory finds nothing but what the directory offers. -/
theorem exists_offers_of_mem {entries : List (RawText × Entry)}
    (plain : (Entry.directory entries).Plain) {path found : Pathname}
    (short : path.isTooLong = false) (among : found ∈ filesIn path entries) :
    ∃ folders file, Offers IsLeftOut (.directory entries) folders file ∧
      (path.joinAll folders).isTooLong = false ∧ found = path.joinAll (folders ++ [file]) := by
  generalize same : Entry.directory entries = entry at plain
  induction plain generalizing entries path with
  | file => cases same
  | @directory entries distinct named below ih =>
      cases same
      obtain ⟨⟨name, child⟩, member, among⟩ := mem_filesIn.1 among
      cases child with
      | file content =>
          rw [filesAt, List.mem_ite_nil_right, List.mem_singleton] at among
          exact ⟨[], name, (offers_nil_iff distinct).2 ⟨⟨content, member⟩, among.1⟩, short,
            among.2⟩
      | directory inside =>
          obtain ⟨visible, short, among⟩ := mem_filesAt_directory.1 among
          obtain ⟨folders, file, offers, near, same⟩ := ih _ member short among rfl
          exact ⟨name :: folders, file,
            (offers_cons_iff distinct).2 ⟨visible, inside, member, offers⟩, near, same⟩
      | link target => cases among

/-- It finds all of that, as far as paths can be followed. -/
theorem mem_filesIn_of_offers {entries : List (RawText × Entry)}
    (plain : (Entry.directory entries).Plain) {path : Pathname} {folders : Route} {file : RawText}
    (near : (path.joinAll folders).isTooLong = false)
    (offers : Offers IsLeftOut (.directory entries) folders file) :
    path.joinAll (folders ++ [file]) ∈ filesIn path entries := by
  induction folders generalizing entries path with
  | nil =>
      cases plain with
      | directory distinct named below =>
          obtain ⟨⟨content, member⟩, script⟩ := (offers_nil_iff distinct).1 offers
          refine mem_filesIn.2 ⟨_, member, ?_⟩
          rw [filesAt, if_pos script]
          exact List.mem_singleton_self _
  | cons folder folders ih =>
      cases plain with
      | directory distinct named below =>
          obtain ⟨visible, inside, member, offers⟩ := (offers_cons_iff distinct).1 offers
          have short : (path.join folder).isTooLong = false := isTooLong_of_joinAll near
          exact mem_filesIn.2 ⟨_, member, mem_filesAt_directory.2
            ⟨visible, short, ih (below _ member) near offers⟩⟩

variable {files : FileSystem} {directory : Route} {argument : Pathname} {arguments : List Pathname}

/-- The parts of the paths that an argument stands for: that of the file it names, or those of what
the directory it names offers. A folder on the way is looked into under a path that is not too long
to be followed. -/
inductive Wants (leftOut : RawText → Prop) (files : FileSystem) (directory : Route)
    (argument : Pathname) : List Part → Prop where
  | file {content : Option String} (named : files.find directory argument = .ok (.file content)) :
      Wants leftOut files directory argument argument.parts
  | below {entries : List (RawText × Entry)} {folders : Route} {file : RawText}
      (named : files.find directory argument = .ok (.directory entries))
      (offers : Offers leftOut (.directory entries) folders file)
      (near : (argument.joinAll folders).isTooLong = false) :
      Wants leftOut files directory argument (argument.parts ++ (folders ++ [file]).map .named)

theorem exists_mem_expand_iff (plain : files.root.Plain) {found : List Pathname}
    (expanded : expand files directory argument = .ok found) {parts : List Part} :
    (∃ path ∈ found, path.parts = parts) ↔ Wants IsLeftOut files directory argument parts := by
  rw [expand] at expanded
  split at expanded
  · next content named =>
      cases expanded
      constructor
      · rintro ⟨path, member, rfl⟩
        cases List.mem_singleton.1 member
        exact .file named
      · rintro (⟨-⟩ | ⟨other, -, -⟩)
        · exact ⟨argument, List.mem_singleton_self _, rfl⟩
        · rw [named] at other
          cases other
  · next entries named =>
      cases expanded
      obtain ⟨route, located, stands⟩ := FileSystem.find_eq_ok_iff.1 named
      have short := ((FileSystem.locate_eq_ok_iff plain).1 located).2.1
      have plainHere := plain.at? stands
      constructor
      · rintro ⟨path, member, rfl⟩
        obtain ⟨folders, file, offers, near, rfl⟩ := exists_offers_of_mem plainHere short member
        rw [offers.parts_joinAll plainHere]
        exact .below named offers near
      · rintro (⟨other⟩ | ⟨other, offers, near⟩)
        · rw [named] at other
          cases other
        · rw [named] at other
          cases other
          exact ⟨_, mem_filesIn_of_offers plainHere near offers,
            offers.parts_joinAll plainHere argument⟩
  · cases expanded

end Found

/-- In a plain file system, a search fails when an argument names neither a file nor a directory.
What any other search gives comes in strictly ascending order, and the paths in it are the same as
those that the arguments stand for. Hidden directories are left out if their name is text. -/
theorem discover_finds_wanted_files (files : FileSystem) (plain : files.root.Plain)
    (directory : Route) (arguments : List Pathname) :
    ((∃ error, discover files directory arguments = .error error) ↔
      ∃ argument ∈ arguments, ¬ IsPresent files directory argument) ∧
    ∀ paths, discover files directory arguments = .ok paths →
      paths.Pairwise (fun path other => path.compare other = .lt) ∧
      ∀ path : Pathname, (∃ found ∈ paths, found.parts = path.parts) ↔
        ∃ argument ∈ arguments, Wants IsLeftOut files directory argument path.parts := by
  refine ⟨exists_discover_error_iff, fun paths done => ⟨discover_ascends done, fun path => ?_⟩⟩
  have present := exists_discover_iff.1 ⟨paths, done⟩
  rw [exists_mem_discover_iff done]
  constructor
  · rintro ⟨argument, given, found, expanded, among⟩
    exact ⟨argument, given, (exists_mem_expand_iff plain expanded).1 among⟩
  · rintro ⟨argument, given, wants⟩
    obtain ⟨found, expanded⟩ := exists_expand_iff.2 (present argument given)
    exact ⟨argument, given, found, expanded, (exists_mem_expand_iff plain expanded).2 wants⟩

section Project

def deepFolder : List (RawText × Entry) :=
  [("c.mjs", .file (some "a_b"))]

def packageFolder : List (RawText × Entry) :=
  [("lib.js", .file (some "a_b"))]

def hiddenFolder : List (RawText × Entry) :=
  [("hook.js", .file (some "a_b"))]

def sourceFolder : List (RawText × Entry) :=
  [(".eslintrc.js", .file none), (".git", .directory hiddenFolder), (".js", .file (some "")),
    ("deep", .directory deepFolder), ("node_modules", .directory packageFolder),
    ("readme.md", .file (some ""))]

/-- Sources beside notes, with a package and a hidden directory among them. -/
def project : FileSystem where
  root := .directory [("src", .directory sourceFolder), ("notes.txt", .file (some ""))]

def projectPaths : List Pathname :=
  [⟨"notes.txt"⟩, ⟨"src"⟩, ⟨"src//deep/."⟩, ⟨"src/node_modules"⟩]

theorem plain_project : project.root.Plain := by
  have one (name : RawText) (named : IsEntryName name) (content : Option String) :
      (Entry.directory [(name, .file content)]).Plain :=
    .directory (List.nodup_singleton name) (by simpa using named) (by simpa using .file content)
  refine .directory (by decide) (by decide) ?_
  simp only [List.forall_mem_cons, List.not_mem_nil, false_implies, implies_true, and_true]
  refine ⟨.directory (by decide) (by decide) ?_, .file _⟩
  simp only [sourceFolder, List.forall_mem_cons, List.not_mem_nil, false_implies, implies_true,
    and_true]
  exact ⟨.file _, one _ (by decide) _, .file _, one _ (by decide) _, one _ (by decide) _, .file _⟩

theorem locate_project :
    project.locate [] ⟨"notes.txt"⟩ = .ok ["notes.txt"] ∧
    project.locate [] ⟨"src"⟩ = .ok ["src"] ∧
    project.locate [] ⟨"src//deep/."⟩ = .ok ["src", "deep"] ∧
    project.locate [] ⟨"src/node_modules"⟩ = .ok ["src", "node_modules"] := by
  have locate {path : Pathname} {names route : Route} :=
    @FileSystem.locate_of_leads project plain_project [] route path names
  have source : project.enter [] "src" = some ["src"] := by decide
  have deep : project.enter ["src"] "deep" = some ["src", "deep"] := by decide
  have package : project.enter ["src"] "node_modules" = some ["src", "node_modules"] := by decide
  refine ⟨locate (by decide) rfl ?_, locate (by decide) rfl (.step source (.done _)),
    locate (by decide) rfl (.step source (.step deep (.step rfl (.done _)))),
    locate (by decide) rfl (.step source (.step package (.done _)))⟩
  exact @FileSystem.Leads.file project [] "notes.txt" (by decide) (by decide) _ rfl

theorem find_project :
    project.find [] ⟨"notes.txt"⟩ = .ok (.file (some "")) ∧
    project.find [] ⟨"src"⟩ = .ok (.directory sourceFolder) ∧
    project.find [] ⟨"src//deep/."⟩ = .ok (.directory deepFolder) ∧
    project.find [] ⟨"src/node_modules"⟩ = .ok (.directory packageFolder) := by
  obtain ⟨notes, source, deep, package⟩ := locate_project
  simp only [FileSystem.find_eq_ok_iff]
  exact ⟨⟨_, notes, rfl⟩, ⟨_, source, rfl⟩, ⟨_, deep, rfl⟩, ⟨_, package, rfl⟩⟩

def projectFiles : List Pathname :=
  [⟨"notes.txt"⟩, ⟨"src/.eslintrc.js"⟩, ⟨"src/deep/c.mjs"⟩, ⟨"src/node_modules/lib.js"⟩]

theorem discover_project : discover project [] projectPaths = .ok projectFiles := by
  obtain ⟨notes, source, deep, package⟩ := find_project
  have expanded : projectPaths.mapM (expand project []) =
      .ok [[⟨"notes.txt"⟩], [⟨"src/.eslintrc.js"⟩, ⟨"src/deep/c.mjs"⟩],
        [⟨"src//deep/./c.mjs"⟩], [⟨"src/node_modules/lib.js"⟩]] := by
    refine mapM_eq_ok_iff.2 (.cons ?_ (.cons ?_ (.cons ?_ (.cons ?_ .nil))))
    · simp only [expand, notes]
    · simp only [expand, source]
      rfl
    · simp only [expand, deep]
      rfl
    · simp only [expand, package]
      rfl
  have sorted : [Pathname.mk "notes.txt", ⟨"src/.eslintrc.js"⟩, ⟨"src/deep/c.mjs"⟩,
      ⟨"src//deep/./c.mjs"⟩, ⟨"src/node_modules/lib.js"⟩].Pairwise
        fun path other => path.precedes other := by
    decide
  simp only [discover, expanded, bind, Except.bind, List.flatten_cons, List.flatten_nil,
    List.cons_append, List.nil_append, List.append_nil, List.mergeSort_of_pairwise sorted]
  rfl

theorem not_isPresent_project : ¬ IsPresent project [] ⟨"notes.txt/"⟩ := by
  have nowhere (entry : Entry) : project.find [] ⟨"notes.txt/"⟩ ≠ .ok entry := by
    intro found
    obtain ⟨route, located, -⟩ := FileSystem.find_eq_ok_iff.1 found
    obtain ⟨-, -, leads⟩ := (FileSystem.locate_eq_ok_iff plain_project).1 located
    have steps : FileSystem.stepsOf ⟨"notes.txt/"⟩ = ["notes.txt", "."] := by decide
    rw [steps, ite_self] at leads
    obtain ⟨last, -⟩ := leads.of_not_entered (by decide)
    cases last
  rintro (⟨content, found⟩ | ⟨entries, found⟩)
  · exact nowhere _ found
  · exact nowhere _ found

/-- A file that is named and is no script, a directory with one below it, and a package that is
named; and a search that fails. -/
theorem discover_finds_wanted_project :
    project.root.Plain ∧ discover project [] projectPaths = .ok projectFiles ∧
    projectFiles.Pairwise (fun path other => path.compare other = .lt) ∧
    (∀ path : Pathname, (∃ found ∈ projectFiles, found.parts = path.parts) ↔
      ∃ argument ∈ projectPaths, Wants IsLeftOut project [] argument path.parts) ∧
    ¬ IsPresent project [] ⟨"notes.txt/"⟩ ∧
    ∃ error, discover project [] [⟨"src"⟩, ⟨"notes.txt/"⟩] = .error error := by
  obtain ⟨-, finds⟩ := discover_finds_wanted_files project plain_project [] projectPaths
  obtain ⟨ascends, wanted⟩ := finds projectFiles discover_project
  obtain ⟨fails, -⟩ := discover_finds_wanted_files project plain_project []
    [⟨"src"⟩, ⟨"notes.txt/"⟩]
  exact ⟨plain_project, discover_project, ascends, wanted, not_isPresent_project,
    fails.2 ⟨_, by simp, not_isPresent_project⟩⟩

end Project

section OddName

def oddName : RawText :=
  ⟨[0x2E, 0xFF]⟩

def oddFolder : List (RawText × Entry) :=
  [(oddName, .directory [("a.js", .file (some "a_b"))])]

/-- A script in a hidden directory whose name is no text. -/
def oddProject : FileSystem where
  root := .directory [("w", .directory oddFolder)]

theorem plain_oddProject : oddProject.root.Plain := by
  refine .directory (by decide) (by decide) ?_
  rw [List.forall_mem_singleton]
  refine .directory (by decide) (by decide) ?_
  rw [oddFolder, List.forall_mem_singleton]
  exact .directory (by decide) (by decide) (by simpa using .file _)

theorem find_oddProject : oddProject.find [] ⟨"w"⟩ = .ok (.directory oddFolder) := by
  have located : oddProject.locate [] ⟨"w"⟩ = .ok ["w"] :=
    @FileSystem.locate_of_leads oddProject plain_oddProject [] ["w"] ⟨"w"⟩ ["w"] (by decide) rfl
      (.step (by decide) (.done _))
  exact FileSystem.find_eq_ok_iff.2 ⟨_, located, rfl⟩

def oddFile : Pathname :=
  (Pathname.mk "w").joinAll [oddName, "a.js"]

theorem discover_oddProject : discover oddProject [] [⟨"w"⟩] = .ok [oddFile] := by
  have expanded : [Pathname.mk "w"].mapM (expand oddProject []) = .ok [[oddFile]] := by
    refine mapM_eq_ok_iff.2 (.cons ?_ .nil)
    simp only [expand, find_oddProject]
    rfl
  simp only [discover, expanded, bind, Except.bind, List.flatten_cons, List.flatten_nil,
    List.append_nil, List.mergeSort_singleton]
  rfl

/-- A hidden directory is looked into if its name is no text. -/
theorem not_always_hidden_left_out :
    ¬ ∀ (files : FileSystem) (directory : Route) (arguments paths : List Pathname),
      files.root.Plain → discover files directory arguments = .ok paths →
        ∀ path : Pathname, (∃ found ∈ paths, found.parts = path.parts) ↔
          ∃ argument ∈ arguments, Wants (fun name => name = "node_modules" ∨ IsHidden name) files
            directory argument path.parts := by
  intro always
  obtain ⟨argument, given, wants⟩ := (always oddProject [] _ _ plain_oddProject discover_oddProject
    oddFile).1 ⟨oddFile, List.mem_singleton_self _, rfl⟩
  cases List.mem_singleton.1 given
  generalize parts : oddFile.parts = all at wants
  cases wants with
  | file named =>
      rw [find_oddProject] at named
      cases named
  | @below entries folders file named offers near =>
      have own : oddFile.parts =
          (Pathname.mk "w").parts ++ ([oddName] ++ [("a.js" : RawText)]).map .named := by decide
      have same := List.append_cancel_left (own.symm.trans parts)
      have names := List.map_injective_iff.2 (fun _ _ => Part.named.inj) same
      obtain ⟨rfl, -⟩ := List.append_inj' names rfl
      exact offers.visible oddName (List.mem_singleton_self _) (.inr rfl)

end OddName

end NameLint.Files
