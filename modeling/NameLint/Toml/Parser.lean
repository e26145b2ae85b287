import NameLint.Toml.Scalar
import NameLint.Toml.StringValue

/-!
# Reading TOML

A document is read line by line into one table. A header opens a table and is followed by its
entries. Nothing is defined twice: tables can be added to only where nothing has fixed their
content, which is before their own header, or by further dotted keys under the same header.
-/

namespace NameLint.Toml

open NameLint.Text

set_option autoImplicit false

/-! Keys -/

def isBareKeyChar (c : Char) : Bool :=
  c.isAlphanum || c == '_' || c == '-'

def readKey (input : Input) : Option (Key × Input) := do
  match input.rest with
  | '"' :: _ => do
      let (name, later) ← readSingle '"' input.tail
      return (⟨input.spanTo later, name⟩, later)
  | '\'' :: _ => do
      let (name, later) ← readSingle '\'' input.tail
      return (⟨input.spanTo later, name⟩, later)
  | _ =>
      let name := input.rest.takeWhile isBareKeyChar
      if name.isEmpty then none
      else
        let later := input.behind name (input.rest.dropWhile isBareKeyChar)
        return (⟨input.spanTo later, String.ofList name⟩, later)

/-- A key with dots: the keys in front of the last one, and the last one. -/
structure KeyPath where
  path : List Key
  last : Key

/-- A key with dots has at most this many parts. -/
def maxParts : Nat := 80

/-- Reads on behind a part of a key, where so many more may follow. -/
def readPathFrom (path : List Key) (last : Key) (room : Nat) (input : Input) :
    Option (KeyPath × Input) :=
  match input.skipBlanks.rest, room with
  | '.' :: _, 0 => none
  | '.' :: _, room + 1 => do
      let (key, later) ← readKey input.skipBlanks.tail.skipBlanks
      readPathFrom (path ++ [last]) key room later
  | _, _ => some (⟨path, last⟩, input)

def readPath (input : Input) : Option (KeyPath × Input) := do
  let (key, later) ← readKey input
  readPathFrom [] key (maxParts - 1) later

/-! Tables -/

/-- Changes the table at the end of a path below a table. Missing tables are made on the way, and
the last table stands for an array of them. -/
def within (dotted : Bool) (change : TableKind → Table → Option Table) :
    List Key → TableKind → Table → Option Table
  | [], kind, table => change kind table
  | key :: path, _, table =>
      match table.find? key.content with
      | none => do
          let made : TableKind := if dotted then .dotted else .implied
          return table.insert key ⟨key.span, .table made (← within dotted change path made [])⟩
      | some ⟨span, .table kind entries⟩ =>
          if kind = .inlined ∨ (dotted ∧ kind = .header) then none
          else do
            let changed ← within dotted change path kind entries
            return table.replace key.content ⟨span, .table kind changed⟩
      | some ⟨span, .array true items⟩ =>
          match items.getLast? with
          | some ⟨itemSpan, .table kind entries⟩ => do
              let changed ← within dotted change path kind entries
              let items := items.dropLast ++ [⟨itemSpan, .table kind changed⟩]
              return table.replace key.content ⟨span, .array true items⟩
          | _ => none
      | some _ => none

/-- Adds an entry to a table that was made by dotted keys if, and only if, the entry has one. -/
def addEntry (dotted : Bool) (key : Key) (value : Located Value) (kind : TableKind)
    (table : Table) : Option Table :=
  if (kind == .dotted) == dotted && (table.find? key.content).isNone then
    some (table.insert key value)
  else none

def assign (key : KeyPath) (value : Located Value) (kind : TableKind) (table : Table) :
    Option Table :=
  within true (addEntry (!key.path.isEmpty) key.last value) key.path kind table

/-- Opens a table by its header. A table that is only implied so far is now written here. -/
def openTable (key : Key) (span : Span) (_kind : TableKind) (table : Table) : Option Table :=
  match table.find? key.content with
  | none => some (table.insert key ⟨span, .table .header []⟩)
  | some ⟨_, .table .implied entries⟩ =>
      some ((table.erase key.content).insert key ⟨span, .table .header entries⟩)
  | some _ => none

/-- Opens one more table of an array. -/
def openItem (key : Key) (span : Span) (_kind : TableKind) (table : Table) : Option Table :=
  let item : Located Value := ⟨span, .table .header []⟩
  match table.find? key.content with
  | none => some (table.insert key ⟨span, .array true [item]⟩)
  | some ⟨written, .array true items⟩ =>
      some (table.replace key.content ⟨written, .array true (items ++ [item])⟩)
  | some _ => none

/-! Values -/

/-- Arrays and tables between braces can be nested this deep. -/
def maxNesting : Nat := 80

def readScalar (input : Input) : Option (Located Value × Input) := do
  match input.rest with
  | '"' :: _ => do
      let (text, later) ← readString '"' input
      return (⟨input.spanTo later, .string text⟩, later)
  | '\'' :: _ => do
      let (text, later) ← readString '\'' input
      return (⟨input.spanTo later, .string text⟩, later)
  | _ => do
      let word := wordAt input.rest
      let later := input.behind word (input.rest.drop word.length)
      return (⟨input.spanTo later, ← scalar? word⟩, later)

mutual

def readValue : Nat → Nat → Input → Option (Located Value × Input)
  | 0, _, _ => none
  | fuel + 1, nesting, input =>
      match input.rest, nesting with
      | '[' :: _, 0 => none
      | '\x7b' :: _, 0 => none
      | '[' :: _, nesting + 1 => readItems fuel nesting input [] input.tail
      | '\x7b' :: _, nesting + 1 => readEntries fuel nesting input [] input.tail
      | _, _ => readScalar input

/-- Reads on in an array that starts at `start`, behind the given items, the last one first. -/
def readItems : Nat → Nat → Input → List (Located Value) → Input → Option (Located Value × Input)
  | 0, _, _, _, _ => none
  | fuel + 1, nesting, start, items, input => do
      let input ← input.skipGap
      match input.rest with
      | ']' :: _ => return (⟨start.spanTo input.tail, .array false items.reverse⟩, input.tail)
      | _ => do
          let (item, later) ← readValue fuel nesting input
          let items := item :: items
          let later ← later.skipGap
          match later.rest with
          | ',' :: _ => readItems fuel nesting start items later.tail
          | ']' :: _ =>
              return (⟨start.spanTo later.tail, .array false items.reverse⟩, later.tail)
          | _ => none

/-- Reads on in a table between braces that starts at `start`. Lines may end, and comments stand,
anywhere in it but within a key. -/
def readEntries : Nat → Nat → Input → Table → Input → Option (Located Value × Input)
  | 0, _, _, _, _ => none
  | fuel + 1, nesting, start, table, input => do
      let input ← input.skipGap
      match input.rest with
      | '\x7d' :: _ => return (⟨start.spanTo input.tail, .table .inlined table⟩, input.tail)
      | _ => do
          let (key, later) ← readPath input
          let later ← later.skipGap
          match later.rest with
          | '=' :: _ => do
              let (value, later) ← readValue fuel nesting (← later.tail.skipGap)
              let table ← assign key value .inlined table
              let later ← later.skipGap
              match later.rest with
              | ',' :: _ => readEntries fuel nesting start table later.tail
              | '\x7d' :: _ =>
                  return (⟨start.spanTo later.tail, .table .inlined table⟩, later.tail)
              | _ => none
          | _ => none

end

/-! Documents -/

/-- The table of the document, and the way to the table that entries go to. -/
structure Reading where
  root : Table := []
  current : List Key := []

def readHeader (start input : Input) (isItem : Bool) (reading : Reading) :
    Option (Reading × Input) := do
  let (key, later) ← readPath input.skipBlanks
  let later := later.skipBlanks
  let close := if isItem then [']', ']'] else [']']
  if later.rest.take close.length = close then
    let later := later.behind close (later.rest.drop close.length)
    let span := start.spanTo later
    let change := if isItem then openItem key.last span else openTable key.last span
    let root ← within false change key.path .header reading.root
    return ({ root, current := key.path ++ [key.last] }, later)
  else none

def readAssignment (input : Input) (reading : Reading) : Option (Reading × Input) := do
  let (key, later) ← readPath input
  match later.skipBlanks.rest with
  | '=' :: _ => do
      let value := later.skipBlanks.tail.skipBlanks
      let (value, later) ← readValue (2 * value.rest.length + 1) maxNesting value
      let root ← within false (assign key value) reading.current .header reading.root
      return ({ reading with root }, later)
  | _ => none

def readLine (input : Input) (reading : Reading) : Option (Reading × Input) :=
  match input.rest with
  | '[' :: '[' :: _ => readHeader input input.tail.tail true reading
  | '[' :: _ => readHeader input input.tail false reading
  | _ => readAssignment input reading

/-- Reads the lines that are left; each takes a character at least. -/
def readLines : Nat → Reading → Input → Option Table
  | 0, reading, input => if input.rest.isEmpty then some reading.root else none
  | fuel + 1, reading, input => do
      let input ← input.skipGap
      if input.rest.isEmpty then some reading.root
      else
        let (reading, later) ← readLine input reading
        readLines fuel reading (← later.endLine)

def byteOrderMark : Char := '\uFEFF'

/-- The table of a document, if the text is one. -/
def parse? (text : String) : Option Table :=
  let input : Input := ⟨text.toList, 0⟩
  let input := if input.rest.head? = some byteOrderMark then input.tail else input
  readLines input.rest.length {} input

end NameLint.Toml
