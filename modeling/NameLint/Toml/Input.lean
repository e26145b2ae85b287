import NameLint.Text.Span

/-!
# Reading characters

What is left of a document, with the offset where it starts. Reading skips blanks within a line, or
also the line ends and comments between values.
-/

namespace NameLint.Toml

open NameLint.Text

set_option autoImplicit false

structure Input where
  rest : List Char
  offset : Nat

namespace Input

def byteSize (text : List Char) : Nat :=
  text.foldl (fun size c => size + c.utf8Size) 0

def tail (input : Input) : Input :=
  match input.rest with
  | [] => input
  | c :: rest => ⟨rest, input.offset + c.utf8Size⟩

def behind (input : Input) (taken rest : List Char) : Input :=
  ⟨rest, input.offset + byteSize taken⟩

def spanTo (input later : Input) : Span :=
  if ordered : input.offset ≤ later.offset then ⟨input.offset, later.offset, ordered⟩
  else Span.empty input.offset

def isBlank (c : Char) : Bool :=
  c == ' ' || c == '\t'

def skipBlanks (input : Input) : Input :=
  input.behind (input.rest.takeWhile isBlank) (input.rest.dropWhile isBlank)

/-- Comments and single-line strings hold no controls but tabs. -/
def isPlain (c : Char) : Bool :=
  c == '\t' || (' ' ≤ c && c != '\x7f')

/-- Skips blanks, line ends and comments; fails at a character that no comment may hold. -/
def skipGapFrom (offset : Nat) (inComment : Bool) : List Char → Option Input
  | [] => some ⟨[], offset⟩
  | c :: rest =>
      if c = '\n' ∨ (c = '\r' ∧ rest.head? = some '\n') then skipGapFrom (offset + 1) false rest
      else if inComment then
        if isPlain c then skipGapFrom (offset + c.utf8Size) true rest else none
      else if isBlank c then skipGapFrom (offset + 1) false rest
      else if c = '#' then skipGapFrom (offset + 1) true rest
      else some ⟨c :: rest, offset⟩

def skipGap (input : Input) : Option Input :=
  skipGapFrom input.offset false input.rest

/-- Ends a line: blanks, a comment, and a line end or the end of the document. -/
def endLine (input : Input) : Option Input :=
  let input := input.skipBlanks
  let comment := input.rest.takeWhile (fun c => c != '\n' && c != '\r')
  let after := input.behind comment (input.rest.drop comment.length)
  if comment = [] ∨ (comment.head? = some '#' ∧ comment.all isPlain) then
    match after.rest with
    | [] => some after
    | '\n' :: _ => some after.tail
    | '\r' :: '\n' :: _ => some after.tail.tail
    | _ => none
  else none

end Input

end NameLint.Toml
