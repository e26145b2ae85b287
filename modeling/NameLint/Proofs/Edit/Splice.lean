import NameLint.Edit.Splice
import NameLint.Proofs.Text.Cut

/-!
# What a splice makes

A text with edits made in order is described without any cutting: it is the parts between the spans
as they were, with the new contents between them. The splice loop keeps this description for the
part of the source that it has copied, so that the end of the loop gives it for the whole source.
-/

namespace NameLint

open NameLint.Text

set_option autoImplicit false

/-- The second text is the first one, which starts at `position`, with the span of each edit
replaced by what the edit writes. -/
inductive Spliced : Nat → List Char → List Edit → List Char → Prop
  | done (position : Nat) (rest : List Char) : Spliced position rest [] rest
  | edit {position : Nat} {kept removed rest after : List Char} {edit : Edit} {edits : List Edit}
      (start : position + byteLength kept = edit.span.start)
      (stop : edit.span.start + byteLength removed = edit.span.stop)
      (later : Spliced edit.span.stop rest edits after) :
      Spliced position (kept ++ removed ++ rest) (edit :: edits)
        (kept ++ edit.inserted.toList ++ after)

theorem Spliced.eq_of_nil {position : Nat} {text after : List Char}
    (spliced : Spliced position text [] after) : after = text := by
  cases spliced
  rfl

theorem Spliced.unique {position : Nat} {text after other : List Char} {edits : List Edit}
    (first : Spliced position text edits after) (second : Spliced position text edits other) :
    after = other := by
  induction first generalizing other with
  | done position rest => exact second.eq_of_nil.symm
  | @edit position kept removed rest after edit edits start stop later ih =>
      generalize whole : kept ++ removed ++ rest = text at second
      cases second with
      | @edit _ kept' removed' rest' after' _ _ start' stop' later' =>
          rw [List.append_assoc, List.append_assoc] at whole
          obtain ⟨rfl, tails⟩ := append_inj_of_byteLength whole (by omega)
          obtain ⟨rfl, rfl⟩ := append_inj_of_byteLength tails (by omega)
          rw [ih later']

theorem Spliced.append {position : Nat} {text after others tail : List Char}
    {edits more : List Edit} (first : Spliced position text edits after)
    (second : Spliced (position + byteLength text) others more tail) :
    Spliced position (text ++ others) (edits ++ more) (after ++ tail) := by
  induction first with
  | done position rest =>
      cases second with
      | done => exact .done position _
      | @edit _ kept _ _ _ edit _ start stop later =>
          have longer : position + byteLength (rest ++ kept) = edit.span.start := by
            rw [byteLength_append, ← Nat.add_assoc]
            exact start
          simpa only [List.append_assoc, List.nil_append] using Spliced.edit longer stop later
  | edit start stop later ih =>
      have whole := Spliced.edit start stop (ih (by
        rw [byteLength_append, byteLength_append] at second
        rw [← stop, ← start]
        simpa only [Nat.add_assoc] using second))
      simpa only [List.append_assoc, List.cons_append] using whole

/-- A splice has copied the source up to where it is, with the given edits made in order. -/
structure Made (source : String) (edits : List Edit) (splice : Splice) : Prop where
  copied : ∃ consumed rest, source.toList = consumed ++ rest ∧
    byteLength consumed = splice.reached ∧ Spliced 0 consumed edits splice.output.toList
  applied : ∀ edit, edit ∈ splice.applied ↔ edit ∈ edits

theorem made_nothing (source : String) : Made source [] {} :=
  ⟨⟨[], source.toList, rfl, rfl, .done 0 []⟩, by simp⟩

section Step

variable {source : String} {made : List Edit} {splice : Splice} (progress : Made source made splice)

include progress

theorem Made.edit {edit : Edit} (start : IsBoundary source edit.span.start)
    (stop : IsBoundary source edit.span.stop) (behind : splice.reached ≤ edit.span.start) :
    ∃ next, splice.edit source edit = .ok next ∧ Made source (made ++ [edit]) next ∧
      next.position = some edit.span.stop ∧ next.fixed = splice.fixed := by
  obtain ⟨consumed, rest, shape, reached, spliced⟩ := progress.copied
  have here : IsBoundary source splice.reached := ⟨consumed, rest, shape, reached⟩
  obtain ⟨front, kept, after, outer, frontLength, keptLength⟩ := here.parts start behind
  obtain ⟨before, removed, tail, inner, beforeLength, removedLength⟩ :=
    start.parts stop edit.span.start_le_stop
  have cutKept : cut source splice.reached edit.span.start = .ok (String.ofList kept) :=
    cut_eq_ok_iff.2 ⟨front, after, by simpa using outer, frontLength, by simpa using keptLength⟩
  have same : consumed = front ∧ rest = kept ++ after :=
    append_inj_of_byteLength (by rw [← shape, outer, List.append_assoc])
      (reached.trans frontLength.symm)
  have same' : front ++ kept = before ∧ after = removed ++ tail :=
    append_inj_of_byteLength (by rw [← outer, inner, List.append_assoc])
      (by rw [byteLength_append, frontLength, keptLength, beforeLength])
  refine ⟨{ splice with
      output := splice.output ++ String.ofList kept ++ edit.inserted
      position := some edit.span.stop
      applied := edit :: splice.applied }, by rw [Splice.edit, cutKept]; rfl,
    ⟨⟨consumed ++ (kept ++ removed), tail, ?_, ?_, ?_⟩, ?_⟩, rfl, rfl⟩
  · rw [shape, same.2, same'.2]
    simp only [List.append_assoc]
  · simp only [Splice.reached, Option.getD_some, byteLength_append, same.1]
    omega
  · have one := Spliced.edit keptLength removedLength (.done edit.span.stop [])
    rw [List.append_nil, List.append_nil] at one
    rw [← reached, ← Nat.zero_add (byteLength consumed)] at one
    simpa using spliced.append one
  · intro other
    simp [progress.applied other, or_comm]

theorem Made.finish : ∃ code, splice.finish source = .ok code ∧
    Spliced 0 source.toList made code.toList := by
  obtain ⟨consumed, rest, shape, reached, spliced⟩ := progress.copied
  have cutRest : cutFrom source splice.reached = .ok (String.ofList rest) :=
    cutFrom_eq_ok_iff.2 ⟨consumed, by simpa using shape, reached⟩
  refine ⟨splice.output ++ String.ofList rest, by rw [Splice.finish, cutRest]; rfl, ?_⟩
  have whole := spliced.append (.done _ rest)
  simpa [shape] using whole

end Step

end NameLint
