import NameLint.Text.Quoted
import NameLint.Text.Repeated
import NameLint.Tree.Moves

/-!
# Outlines

An outline shows a tree with a line for every node, indented by its depth. Rows end at line feeds
alone and are counted from one; columns are bytes and counted from zero. A node without children
shows the start of its text as well.
-/

namespace NameLint

open NameLint.Text

set_option autoImplicit false

def Place.describe (place : Place) : String :=
  "CstNode \x7b kind: " ++ quoted place.kind ++ ", range: " ++ place.span.render ++ " \x7d"

namespace Outline

/-- Row and column, both from zero, of the point `bytes` behind a point in this row and column. -/
def pointFrom (row column bytes : Nat) : List Char → Nat × Nat
  | [] => (row, column)
  | c :: rest =>
      if bytes < c.utf8Size then (row, column + bytes)
      else if c = '\n' then pointFrom (row + 1) 0 (bytes - c.utf8Size) rest
      else pointFrom row (column + c.utf8Size) (bytes - c.utf8Size) rest

def point (source : String) (offset : Nat) : String :=
  let (row, column) := pointFrom 0 0 offset source.toList
  toString (row + 1) ++ ":" ++ toString column

def previewLength : Nat := 40

def preview (text : String) : String :=
  String.ofList ((text.toList.take previewLength).map fun c => if c = '\n' then '↵' else c)

def fieldPart (field : Option String) : String :=
  match field with
  | some name => name ++ ": "
  | none => ""

/-- The text of a node, or the empty text where its span cuts a character in two. A span that ends
behind the source has no text in it. -/
def textIn? (source : String) (place : Place) : Option String :=
  if Offset.endOf source < place.span.stop then none
  else some ((place.text source).toOption.getD "")

def previewPart (source : String) (place : Place) : String :=
  if place.tree.children.isEmpty then
    match textIn? source place with
    | some text => " \"" ++ preview text ++ "\""
    | none => " \"\""
  else ""

def line (source : String) (depth : Nat) (place : Place) : String :=
  indentation depth ++ fieldPart place.tree.label.field ++ place.kind ++
    " [" ++ point source place.span.start ++ "-" ++ point source place.span.stop ++ "]" ++
    previewPart source place

section Printing

variable {State : Type} (moves : Moves State) (source : String)

mutual

/-- The lines of the node under the cursor and of all below it, and the cursor afterwards. -/
def linesAt : Nat → Nat → State → List String × State
  | 0, _, cursor => ([], cursor)
  | fuel + 1, depth, cursor =>
      let own := line source depth (moves.place cursor)
      match moves.firstChild? cursor with
      | none => ([own], cursor)
      | some child =>
          let (below, last) := linesFrom fuel (depth + 1) child
          (own :: below, (moves.parent? last).getD last)

/-- The same for the node under the cursor and the siblings that follow. -/
def linesFrom : Nat → Nat → State → List String × State
  | 0, _, cursor => ([], cursor)
  | fuel + 1, depth, cursor =>
      let (lines, cursor) := linesAt fuel depth cursor
      match moves.nextSibling? cursor with
      | none => (lines, cursor)
      | some sibling =>
          let (more, last) := linesFrom fuel depth sibling
          (lines ++ more, last)

end

/-- The outline of everything below a cursor. No chain of calls is longer than two per node. -/
def print (cursor : State) : List String × State :=
  linesAt moves source (2 * (moves.place cursor).tree.size) 0 cursor

end Printing

def lines (source : String) (tree : Tree) : List String :=
  (print Cursor.moves source (Cursor.atPlace (Place.root tree))).1

end Outline

end NameLint
