import NameLint.Text.Cut

/-!
# Spans

A span is a half-open stretch of offsets. Spans are ordered by their starts, then by their ends.
-/

namespace NameLint.Text

set_option autoImplicit false

@[ext]
structure Span where
  start : Nat
  stop : Nat
  start_le_stop : start ≤ stop
deriving DecidableEq, Repr

namespace Span

def ofBounds (start stop : Nat) : Except Fault Span :=
  if ordered : start ≤ stop then .ok ⟨start, stop, ordered⟩ else .error .reversedSpan

def empty (offset : Nat) : Span :=
  ⟨offset, offset, Nat.le_refl offset⟩

def ofLength (start length : Nat) : Except Fault Span := do
  ofBounds start (← Offset.sum start length)

instance : Inhabited Span := ⟨empty 0⟩

def length (span : Span) : Nat :=
  span.stop - span.start

def isEmpty (span : Span) : Bool :=
  span.start == span.stop

def contains (span : Span) (offset : Nat) : Bool :=
  span.start ≤ offset && offset < span.stop

def includes (span other : Span) : Bool :=
  span.start ≤ other.start && other.stop ≤ span.stop

/-- The common part. Spans that only touch have an empty one. -/
def intersect (span other : Span) : Option Span :=
  let start := max span.start other.start
  let stop := min span.stop other.stop
  if ordered : start ≤ stop then some ⟨start, stop, ordered⟩ else none

/-- Whether the spans share a byte. -/
def overlaps (span other : Span) : Bool :=
  span.start < other.stop && other.start < span.stop

def compare (span other : Span) : Ordering :=
  (Ord.compare span.start other.start).then (Ord.compare span.stop other.stop)

def precedes (span other : Span) : Bool :=
  (compare span other).isLE

theorem precedes_iff {span other : Span} :
    span.precedes other ↔
      span.start < other.start ∨ span.start = other.start ∧ span.stop ≤ other.stop := by
  unfold precedes compare
  rcases Nat.lt_trichotomy span.start other.start with before | same | behind
  · simp [Nat.compare_eq_lt.2 before, before]
  · simp [same, Nat.isLE_compare]
  · simp [Nat.compare_eq_gt.2 behind, Nat.lt_asymm behind, Nat.ne_of_gt behind]

theorem precedes_trans {first second third : Span} (left : first.precedes second)
    (right : second.precedes third) : first.precedes third := by
  simp only [precedes_iff] at *
  omega

theorem precedes_total (span other : Span) : (span.precedes other || other.precedes span) := by
  simp only [Bool.or_eq_true, precedes_iff]
  omega

def sort (spans : List Span) : List Span :=
  spans.mergeSort precedes

def text (span : Span) (source : String) : Except Fault String :=
  cut source span.start span.stop

/-- The source with the text of the span changed in place. -/
def modify (span : Span) (change : String → String) (source : String) : Except Fault String := do
  return (← cut source 0 span.start) ++ change (← span.text source) ++ (← cutFrom source span.stop)

def render (span : Span) : String :=
  toString span.start ++ ".." ++ toString span.stop

end Span

end NameLint.Text
