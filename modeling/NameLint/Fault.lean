/-!
# Faults

The ways an operation on offsets, texts or edits can be abandoned because its arguments do not fit
together. A fault is a defect of the caller, not a finding about the text.
-/

namespace NameLint

set_option autoImplicit false

inductive Fault where
  /-- A sum passes the largest offset. -/
  | offsetOverflow
  /-- A difference would be negative. -/
  | offsetUnderflow
  /-- A span would end before it starts. -/
  | reversedSpan
  /-- A cut is reversed, leaves the text, or splits a character. -/
  | misplacedCut
  /-- A line lies beyond the last one. -/
  | missingLine
  /-- A replacement by nothing, which is a deletion. -/
  | emptyReplacement
deriving DecidableEq, Repr

end NameLint
