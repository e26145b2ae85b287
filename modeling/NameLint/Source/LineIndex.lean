import NameLint.Source.Ordinal
import NameLint.Text.Span

/-!
# Lines and columns

A line ends with a line feed, a carriage return, or both in this order. A location names the line
an offset is on and the column, counted in characters from the start of the line.
-/

namespace NameLint.Source

open NameLint.Text

set_option autoImplicit false

structure Location where
  line : Ordinal
  column : Ordinal
deriving DecidableEq, Repr

namespace Location

instance : Inhabited Location := ⟨⟨.first, .first⟩⟩

def compare (left right : Location) : Ordering :=
  (left.line.compare right.line).then (left.column.compare right.column)

def render (location : Location) : String :=
  location.line.render ++ ":" ++ location.column.render

end Location

/-- The offsets behind the line ends of a text that starts at `offset`. -/
def lineStartsFrom (offset : Nat) : List Char → List Nat
  | [] => []
  | c :: rest =>
      let next := offset + c.utf8Size
      if c = '\n' || (c = '\r' && rest.head? != some '\n') then next :: lineStartsFrom next rest
      else lineStartsFrom next rest

/-- Where the lines of a text start. In ASCII text columns are differences of offsets. -/
structure LineIndex where
  starts : List Nat
  ascii : Bool
deriving DecidableEq, Repr

namespace LineIndex

def ofText (text : String) : LineIndex where
  starts := 0 :: lineStartsFrom 0 text.toList
  ascii := text.toList.all fun c => c.toNat < 128

def lineCount (index : LineIndex) : Nat :=
  index.starts.length

/-- The line that holds the offset: the last one that does not start behind it. -/
def lineAt (index : LineIndex) (offset : Nat) : Ordinal :=
  .ofIndex ((index.starts.takeWhile (· ≤ offset)).length - 1)

/-- The line after the last one starts at the end of the text. -/
def lineStart (index : LineIndex) (line : Ordinal) (text : String) : Except Fault Nat :=
  if line.index = index.lineCount then .ok (Offset.endOf text)
  else
    match index.starts[line.index]? with
    | some start => .ok start
    | none => .error .missingLine

def lineEnd (index : LineIndex) (line : Ordinal) (text : String) : Nat :=
  match index.starts[line.index + 1]? with
  | some start => start
  | none => Offset.endOf text

/-- The span of a line with its line end. -/
def lineSpan (index : LineIndex) (line : Ordinal) (text : String) : Except Fault Span := do
  Span.ofBounds (← index.lineStart line text) (index.lineEnd line text)

def lineText (index : LineIndex) (line : Ordinal) (text : String) : Except Fault String := do
  (← index.lineSpan line text).text text

def location (index : LineIndex) (offset : Nat) (text : String) : Except Fault Location := do
  let line := index.lineAt offset
  let start ← index.lineStart line text
  let column ←
    if index.ascii then Offset.difference offset start else charactersBetween start offset
  return { line, column := .ofIndex column }
where
  charactersBetween (start stop : Nat) : Except Fault Nat := do
    let span ← Span.ofBounds start stop
    return (← span.text text).toList.length

def render (index : LineIndex) : String :=
  "[" ++ ", ".intercalate (index.starts.map toString) ++ "]"

end LineIndex

end NameLint.Source
