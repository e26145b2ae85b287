import NameLint.Files.FileSystem

/-!
# Finding files

The files to check are those that arguments name, and the JavaScript files below the directories
that arguments name. Below an argument, hidden directories and `node_modules` are left out and
links are not followed. Every path comes once, and paths come in order. A directory whose path is
too long to be followed cannot be looked into.
-/

namespace NameLint.Files

set_option autoImplicit false

def extensions : List String := ["js", "mjs", "cjs", "jsx"]

def isJavaScript (name : RawText) : Bool :=
  ((Pathname.extensionOf name).bind (·.text?)).any extensions.contains

/-- Directories that are not looked into. A name that is no text is that of none of them, even if it
starts with a dot. -/
def isSkipped (name : RawText) : Bool :=
  name.text?.any fun text => text == "node_modules" || text.toList.head? == some '.'

mutual

def filesIn (path : Pathname) : List (RawText × Entry) → List Pathname
  | [] => []
  | (name, entry) :: rest => filesAt (path.join name) name entry ++ filesIn path rest

def filesAt (path : Pathname) (name : RawText) : Entry → List Pathname
  | .file _ => if isJavaScript name then [path] else []
  | .directory entries =>
      if isSkipped name || path.isTooLong then [] else filesIn path entries
  | .link _ => []

end

mutual

/-- The directories below a directory that would be looked into, were their paths not too long. -/
def unopenedIn (path : Pathname) : List (RawText × Entry) → List Pathname
  | [] => []
  | (name, entry) :: rest => unopenedAt (path.join name) name entry ++ unopenedIn path rest

def unopenedAt (path : Pathname) (name : RawText) : Entry → List Pathname
  | .directory entries =>
      if isSkipped name then []
      else if path.isTooLong then [path]
      else unopenedIn path entries
  | _ => []

end

structure NoSuchPath where
  path : Pathname
deriving DecidableEq, Repr

def NoSuchPath.message (error : NoSuchPath) : String :=
  "path does not exist: " ++ error.path.shown

def expand (files : FileSystem) (directory : Route) (argument : Pathname) :
    Except NoSuchPath (List Pathname) :=
  match files.find directory argument with
  | .ok (.file _) => .ok [argument]
  | .ok (.directory entries) => .ok (filesIn argument entries)
  | _ => .error ⟨argument⟩

/-- The directories that cannot be looked into below the arguments. The first argument that stands
for nothing ends the search. -/
def unopened (files : FileSystem) (directory : Route) : List Pathname → List Pathname
  | [] => []
  | argument :: rest =>
      match files.find directory argument with
      | .ok (.file _) => unopened files directory rest
      | .ok (.directory entries) => unopenedIn argument entries ++ unopened files directory rest
      | _ => []

def dropRepeats : List Pathname → List Pathname
  | [] => []
  | path :: rest => path :: after path rest
where
  after (last : Pathname) : List Pathname → List Pathname
    | [] => []
    | path :: rest => if last.agrees path then after last rest else path :: after path rest

def discover (files : FileSystem) (directory : Route) (arguments : List Pathname) :
    Except NoSuchPath (List Pathname) := do
  let found ← arguments.mapM (expand files directory)
  return dropRepeats (found.flatten.mergeSort Pathname.precedes)

end NameLint.Files
