import NameLint.Files.Pathname

/-!
# File systems

A file system is a tree of directories with files and symbolic links. A path is followed from a
directory, name by name and through the links on the way, to the place that it names.
-/

namespace NameLint.Files

set_option autoImplicit false

inductive Entry where
  /-- A file and its text, unless its bytes are no text. -/
  | file (content : Option String)
  | directory (entries : List (RawText × Entry))
  | link (target : RawText)

/-- The names from the root down to an entry. -/
abbrev Route := List RawText

/-! Names that are text may be given as such. -/

instance : Coe (List String) Route :=
  ⟨List.map RawText.ofString⟩

instance : Coe (List (String × Entry)) (List (RawText × Entry)) :=
  ⟨List.map fun (name, entry) => (RawText.ofString name, entry)⟩

inductive AccessError where
  | missing
  | notDirectory
  | isDirectory
  | tooManyLinks
  | nameTooLong
  | notText
deriving DecidableEq, Repr

def AccessError.message : AccessError → String
  | .missing => "No such file or directory (os error 2)"
  | .notDirectory => "Not a directory (os error 20)"
  | .isDirectory => "Is a directory (os error 21)"
  | .tooManyLinks => "Too many levels of symbolic links (os error 40)"
  | .nameTooLong => "File name too long (os error 36)"
  | .notText => "stream did not contain valid UTF-8"

namespace Entry

def child? (entry : Entry) (name : RawText) : Option Entry :=
  match entry with
  | .directory entries => (entries.find? (·.1 == name)).map (·.2)
  | _ => none

def at? (entry : Entry) : Route → Option Entry
  | [] => some entry
  | name :: rest => (entry.child? name).bind (·.at? rest)

def withText (text : String) : Route → Entry → Entry
  | [], .file _ => .file (some text)
  | name :: rest, .directory entries =>
      .directory (entries.map fun child =>
        if child.1 == name then (child.1, withText text rest child.2) else child)
  | _, entry => entry

end Entry

structure FileSystem where
  root : Entry

namespace FileSystem

/-- How many links are followed on the way to one place. -/
def maxLinks : Nat := 40

/-- No directory holds a name of more bytes. -/
def maxNameSize : Nat := 255

/-- The names to follow. Behind a final slash stands a dot, which only a directory has. -/
def stepsOf (path : Pathname) : List RawText :=
  let names := path.segments.filter (!·.isEmpty)
  if path.text.bytes.getLast? = some slash then names ++ [("." : RawText)] else names

def follow (files : FileSystem) (links : Nat) (route : Route) (names : List RawText) :
    Except AccessError Route :=
  match names with
  | [] => .ok route
  | name :: rest =>
      if name = "." then files.follow links route rest
      else if name = ".." then files.follow links route.dropLast rest
      else if maxNameSize < name.size then .error .nameTooLong
      else
        match files.root.at? (route ++ [name]) with
        | none => .error .missing
        | some (.directory _) => files.follow links (route ++ [name]) rest
        | some (.file _) =>
            if rest.isEmpty then .ok (route ++ [name]) else .error .notDirectory
        | some (.link target) =>
            match links with
            | 0 => .error .tooManyLinks
            | links + 1 =>
                let start := if (Pathname.mk target).isAbsolute then [] else route
                files.follow links start (stepsOf ⟨target⟩ ++ rest)
termination_by (links, names.length)

def locate (files : FileSystem) (directory : Route) (path : Pathname) :
    Except AccessError Route :=
  if path.text.isEmpty then .error .missing
  else if path.isTooLong then .error .nameTooLong
  else files.follow maxLinks (if path.isAbsolute then [] else directory) (stepsOf path)

/-- The entry that a path names; never a link. -/
def find (files : FileSystem) (directory : Route) (path : Pathname) : Except AccessError Entry := do
  match files.root.at? (← files.locate directory path) with
  | some entry => .ok entry
  | none => .error .missing

def isFile (files : FileSystem) (directory : Route) (path : Pathname) : Bool :=
  match files.find directory path with
  | .ok (.file _) => true
  | _ => false

def read (files : FileSystem) (directory : Route) (path : Pathname) :
    Except AccessError String := do
  match ← files.find directory path with
  | .file (some text) => .ok text
  | .file none => .error .notText
  | .directory _ => .error .isDirectory
  | .link _ => .error .missing

/-- Writes to the file that a path names. Where there is none, nothing changes. -/
def write (files : FileSystem) (directory : Route) (path : Pathname) (text : String) : FileSystem :=
  match files.locate directory path with
  | .ok route => ⟨files.root.withText text route⟩
  | .error _ => files

end FileSystem

end NameLint.Files
