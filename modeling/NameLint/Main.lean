import NameLint.Command.Dump
import NameLint.Command.Run
import NameLint.Tree.Rows

/-!
# The programs

The linter reads the files below the working directory and those that its arguments name, runs on
them in memory, and writes back what the run has changed. Under the name `dump_js_ast` the program
prints the outline of standard input.

Syntax trees come from a parser that ran before: rows in a file beside the source, with `.tree`
after its name, and with `.fixed.tree` for the source after its fixes. Standard input is parsed by
the rows in the file that the first argument names.
-/

namespace NameLint.Program

open NameLint.Command NameLint.Files

set_option autoImplicit false

def noTree : Tree :=
  .node ⟨"program", none, default, true, false⟩ []

def readText? (path : String) : IO (Option String) := do
  try return String.fromUTF8? (← IO.FS.readBinFile path)
  catch _ => return none

def readTree? (path : String) : IO (Option Tree) := do
  return (← readText? path).bind Tree.ofText?

/-- Reads what is at a path. Links are kept, with the place that they lead to in the end.
Directories that are not looked into stay empty. -/
partial def readEntry (path : String) : IO Entry := do
  let place := System.mkFilePath [path]
  match (← place.symlinkMetadata).type with
  | .dir => do
      let entries ← (← place.readDir).toList.mapM fun child => do
        let below := path ++ "/" ++ child.fileName
        if isSkipped child.fileName && (← child.path.isDir) then
          return (child.fileName, Entry.directory [])
        else return (child.fileName, ← readEntry below)
      return .directory entries
  | .symlink => do
      try return .link (← IO.FS.realPath place).toString
      catch _ => return .link path
  | _ => return .file (← readText? path)

def routeOf (path : String) : Route :=
  (Pathname.mk path).segments.filter (!·.isEmpty)

def pathOf (route : Route) : String :=
  "/" ++ (Pathname.ofSegments route).shown

/-- Puts an entry at a route, with the directories on the way. -/
def plant (entry : Entry) : Route → Entry → Entry
  | name :: rest, .directory present =>
      let child := (present.lookup name).getD (.directory [])
      .directory ((name, plant entry rest child) :: present.filter (·.1 != name))
  | _, _ => entry

/-- Adds what a path leads to, and the link that an absolute path may be. -/
def addPath (directory : String) (root : Entry) (path : Pathname) : IO Entry := do
  let place := if path.isAbsolute then path.shown else directory ++ "/" ++ path.shown
  try
    let real := (← IO.FS.realPath place).toString
    let root := plant (← readEntry real) (routeOf real) root
    if path.isAbsolute && routeOf place != routeOf real then
      return plant (.link real) (routeOf place) root
    else return root
  catch _ => return root

/-- What a command line needs of the files. -/
def readFiles (directory : String) (arguments : List String) : IO FileSystem := do
  match Invocation.ofArguments arguments with
  | .error _ => return ⟨.directory []⟩
  | .ok invocation => do
      let root := plant (← readEntry directory) (routeOf directory) (.directory [])
      let paths := invocation.paths ++ invocation.config.toList
      return ⟨← paths.foldlM (addPath directory) root⟩

mutual

def textsBelow (route : Route) : Entry → List (Route × String)
  | .file (some text) => [(route, text)]
  | .file none => []
  | .directory entries => textsIn route entries
  | .link _ => []

def textsIn (route : Route) : List (RawText × Entry) → List (Route × String)
  | [] => []
  | (name, entry) :: rest => textsBelow (route ++ [name]) entry ++ textsIn route rest

end

def parseBy (known : List (String × Tree)) (source : String) : Tree :=
  (known.lookup source).getD noTree

def changes (before after : FileSystem) : List (Route × String) :=
  (textsBelow [] after.root).filter fun (route, text) =>
    match before.root.at? route with
    | some (.file (some old)) => old != text
    | _ => false

def treesOf (ending : String) (texts : List (Route × String)) : IO (List (String × Tree)) := do
  let trees ← texts.mapM fun (route, text) => do
    return (← readTree? (pathOf route ++ ending)).map (text, ·)
  return trees.filterMap id

def readStdin? : IO (Option String) := do
  return String.fromUTF8? (← (← IO.getStdin).readBinToEnd)

def lint (arguments : List String) : IO Output := do
  let directory := (← IO.FS.realPath (← IO.currentDir)).toString
  let files ← readFiles directory arguments
  let workspace : Workspace :=
    { files, directory := routeOf directory, log := ← IO.getEnv "CAMELINT_LOG" }
  let known ← treesOf ".tree" (textsBelow [] files.root)
  match run (parseBy known) workspace arguments with
  | .error _ => throw (IO.userError "a tree does not fit its source")
  | .ok first => do
      let fixed ← treesOf ".fixed.tree" (changes workspace.files first.files)
      match run (parseBy (known ++ fixed)) workspace arguments with
      | .error _ => throw (IO.userError "a tree does not fit its source")
      | .ok outcome => do
          for (route, text) in changes workspace.files outcome.files do
            IO.FS.writeFile (pathOf route) text
          for event in outcome.events do
            IO.eprintln event.render
          return outcome.output

def dumpTree (arguments : List String) : IO Output := do
  let tree ←
    match arguments with
    | [] => pure none
    | path :: _ => readTree? path
  return dump (fun _ => tree.getD noTree) (← readStdin?)

end NameLint.Program

def main (arguments : List String) : IO UInt32 := do
  let isDump := (← IO.appPath).fileName == some "dump_js_ast"
  let output ←
    if isDump then NameLint.Program.dumpTree arguments else NameLint.Program.lint arguments
  IO.print output.stdout
  IO.eprint output.stderr
  return output.exit.toUInt32
