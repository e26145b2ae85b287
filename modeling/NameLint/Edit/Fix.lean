import NameLint.Edit.Basic

/-!
# Fixes

A fix is a group of edits that belong together, with a level that tells when it may be applied. A
request for a level accepts the fixes of that level and of every safer one.
-/

namespace NameLint

open NameLint.Text

set_option autoImplicit false

inductive Applicability where
  /-- Shown to the user, who has to carry it out by hand. -/
  | displayOnly
  /-- May change the meaning of the program, so the user has to ask for it. -/
  | optIn
  | safe
deriving DecidableEq, Repr

namespace Applicability

def rank : Applicability → Nat
  | .displayOnly => 0
  | .optIn => 1
  | .safe => 2

end Applicability

structure Fix where
  edits : List Edit
  applicability : Applicability
  edits_ne_nil : edits ≠ []
  edits_ordered : edits.Pairwise fun left right => left.precedes right
deriving DecidableEq, Repr

namespace Fix

def ofEdit (applicability : Applicability) (edit : Edit) : Fix :=
  ⟨[edit], applicability, by simp, by simp⟩

/-- A safe fix of several edits. Edits of one span keep the order in which they are given. -/
def ofEdits (edit : Edit) (rest : List Edit) : Fix where
  edits := (edit :: rest).mergeSort Edit.precedes
  applicability := .safe
  edits_ne_nil := by
    intro none
    have length := congrArg List.length none
    simp at length
  edits_ordered :=
    @List.pairwise_mergeSort _ Edit.precedes (fun _ _ _ => Edit.precedes_trans)
      Edit.precedes_total _

def start (fix : Fix) : Nat :=
  (fix.edits.head fix.edits_ne_nil).span.start

def applies (fix : Fix) (required : Applicability) : Bool :=
  required.rank ≤ fix.applicability.rank

def withApplicability (fix : Fix) (applicability : Applicability) : Fix :=
  { fix with applicability }

end Fix

end NameLint
