import NameLint.Text.Span

/-!
# Edits

An edit puts new content in the place of a span, or deletes the span when it has no content. A
replacement by nothing is not an edit, so that a deletion has one form only.
-/

namespace NameLint

open NameLint.Text

set_option autoImplicit false

structure Edit where
  span : Span
  content : Option String
  content_ne_empty : content ≠ some ""
deriving DecidableEq, Repr

namespace Edit

def deletion (span : Span) : Edit :=
  ⟨span, none, by simp⟩

def replacement (content : String) (span : Span) : Except Fault Edit :=
  if present : content ≠ "" then .ok ⟨span, some content, by simpa using present⟩
  else .error .emptyReplacement

def inserted (edit : Edit) : String :=
  edit.content.getD ""

def precedes (edit other : Edit) : Bool :=
  edit.span.precedes other.span

theorem precedes_trans {first second third : Edit} (left : first.precedes second)
    (right : second.precedes third) : first.precedes third :=
  Span.precedes_trans left right

theorem precedes_total (edit other : Edit) : (edit.precedes other || other.precedes edit) :=
  Span.precedes_total edit.span other.span

/-- A deletion comes before every replacement of the same span. -/
def compareContent : Option String → Option String → Ordering
  | none, none => .eq
  | none, some _ => .lt
  | some _, none => .gt
  | some left, some right => Ord.compare left right

def compare (left right : Edit) : Ordering :=
  (left.span.compare right.span).then (compareContent left.content right.content)

def sort (edits : List Edit) : List Edit :=
  edits.mergeSort fun left right => (compare left right).isLE

end Edit

end NameLint
