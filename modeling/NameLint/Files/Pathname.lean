import NameLint.Files.RawText

/-!
# Paths

A path is kept as it was written, since that is how it is shown. Two paths are compared part by
part: repeated slashes and dots between slashes do not count, except for a dot at the very start.
The root comes before a dot, that before two dots, and those before all names.
-/

namespace NameLint.Files

set_option autoImplicit false

def slash : UInt8 := '/'.toUInt8

def dot : UInt8 := '.'.toUInt8

structure Pathname where
  text : RawText
deriving DecidableEq, Repr

inductive Part where
  | root
  | here
  | up
  | named (name : RawText)
deriving DecidableEq, Repr

namespace Part

def rank : Part → Nat
  | .root => 0
  | .here => 1
  | .up => 2
  | .named _ => 3

def label : Part → RawText
  | .named name => name
  | _ => ""

def compare : Part → Part → Ordering :=
  compareLex (compareOn rank) (compareOn label)

def ofSegment (segment : RawText) : Part :=
  if segment = ".." then .up else .named segment

end Part

namespace Pathname

def shown (path : Pathname) : String :=
  path.text.shown

/-- The texts between slashes, given what has been passed of the first. -/
def segmentsFrom (passed : List UInt8) : List UInt8 → List RawText
  | [] => [⟨passed.reverse⟩]
  | byte :: rest =>
      if byte = slash then ⟨passed.reverse⟩ :: segmentsFrom [] rest
      else segmentsFrom (byte :: passed) rest

def segments (path : Pathname) : List RawText :=
  segmentsFrom [] path.text.bytes

def ofSegments (segments : List RawText) : Pathname :=
  ⟨⟨[slash].intercalate (segments.map (·.bytes))⟩⟩

/-- No path of more bytes is followed. -/
def maxSize : Nat := 4095

def isTooLong (path : Pathname) : Bool :=
  maxSize < path.text.size

def isAbsolute (path : Pathname) : Bool :=
  path.text.bytes.head? == some slash

def isIdle (segment : RawText) : Bool :=
  segment.isEmpty || segment == "."

def start (path : Pathname) : List Part :=
  if path.isAbsolute then [.root]
  else if path.segments.head? = some ("." : RawText) then [.here]
  else []

def parts (path : Pathname) : List Part :=
  path.start ++ (path.segments.filter (!isIdle ·)).map Part.ofSegment

def compare (path other : Pathname) : Ordering :=
  List.compareLex Part.compare path.parts other.parts

def precedes (path other : Pathname) : Bool :=
  (path.compare other).isLE

/-- Whether two paths are the same, part by part. -/
def agrees (path other : Pathname) : Bool :=
  path.parts == other.parts

def join (path : Pathname) (name : RawText) : Pathname :=
  if path.text.isEmpty || path.text.bytes.getLast? == some slash then
    ⟨⟨path.text.bytes ++ name.bytes⟩⟩
  else ⟨⟨path.text.bytes ++ slash :: name.bytes⟩⟩

/-- What follows the last dot of a name. A dot at the start does not count. -/
def extensionOf (name : RawText) : Option RawText :=
  let last := (name.bytes.reverse.takeWhile (· != dot)).reverse
  if last.length + 1 < name.size then some ⟨last⟩ else none

def stripNames : List RawText → List RawText → Option (List RawText)
  | [], segments => some segments
  | name :: names, segments =>
      match segments.dropWhile isIdle with
      | segment :: rest => if segment = name then stripNames names rest else none
      | [] => none

/-- The path from a directory on, for an absolute path that leads through the directory. -/
def relativeTo (path : Pathname) (directory : List RawText) : Pathname :=
  match path.isAbsolute, stripNames directory path.segments with
  | true, some rest => ofSegments ((rest.dropWhile isIdle).reverse.dropWhile isIdle).reverse
  | _, _ => path

end Pathname

end NameLint.Files
