import NameLint.Proofs.Edit.Splice

/-!
# Where edits move an offset

A spliced text falls apart at every offset that no edit holds inside: the edits that end at or
before the offset are made in front of it, the others behind it. So the change of length of the
former is how far the offset moves, and between two such offsets only the edits between them matter.
-/

namespace NameLint

open NameLint.Text

set_option autoImplicit false

def insertedBytes : List Edit → Nat
  | [] => 0
  | edit :: rest => byteLength edit.inserted.toList + insertedBytes rest

def removedBytes : List Edit → Nat
  | [] => 0
  | edit :: rest => edit.span.length + removedBytes rest

/-- Where the edits move an offset: by the change of length of those that end at or before it. -/
def shift (edits : List Edit) (offset : Nat) : Nat :=
  let ended := edits.filter (·.span.stop ≤ offset)
  offset + insertedBytes ended - removedBytes ended

def Clear (edits : List Edit) (offset : Nat) : Prop :=
  ∀ edit ∈ edits, edit.span.stop ≤ offset ∨ offset ≤ edit.span.start

namespace Spliced

theorem length {position : Nat} {text after : List Char} {edits : List Edit}
    (spliced : Spliced position text edits after) :
    byteLength after + removedBytes edits = byteLength text + insertedBytes edits := by
  induction spliced with
  | done position rest => rfl
  | edit start stop later ih =>
      simp only [byteLength_append, insertedBytes, removedBytes, Span.length]
      omega

theorem within {position : Nat} {text after : List Char} {edits : List Edit}
    (spliced : Spliced position text edits after) :
    ∀ edit ∈ edits, position ≤ edit.span.start ∧
      edit.span.stop ≤ position + byteLength text := by
  induction spliced with
  | done position rest => simp
  | edit start stop later ih =>
      intro other member
      rw [byteLength_append, byteLength_append]
      rcases List.mem_cons.1 member with rfl | behind
      · omega
      · have bounds := ih other behind
        omega

theorem split {position offset : Nat} {before behind text after : List Char} {edits : List Edit}
    (spliced : Spliced position text edits after) (shape : text = before ++ behind)
    (reached : position + byteLength before = offset)
    (filled : ∀ edit ∈ edits, edit.span.start < edit.span.stop) (clear : Clear edits offset) :
    ∃ front back, after = front ++ back ∧
      Spliced position before (edits.filter (·.span.stop ≤ offset)) front ∧
      Spliced offset behind (edits.filter (offset < ·.span.stop)) back := by
  induction spliced generalizing before with
  | done position rest =>
      subst shape
      exact ⟨before, behind, rfl, .done position before, .done offset behind⟩
  | @edit position kept removed rest after edit edits start stop later ih =>
      have size := filled edit List.mem_cons_self
      rcases clear edit List.mem_cons_self with ended | ahead
      · obtain ⟨middle, rfl, rfl⟩ := exists_of_append_eq_of_le shape (by
          rw [byteLength_append]
          omega)
        obtain ⟨front, back, rfl, made, left⟩ := ih rfl
          (by
            simp only [byteLength_append] at reached
            omega)
          (fun other member => filled other (List.mem_cons_of_mem _ member))
          (fun other member => clear other (List.mem_cons_of_mem _ member))
        refine ⟨kept ++ edit.inserted.toList ++ front, back, by simp, ?_, ?_⟩
        · rw [List.filter_cons_of_pos (by simpa using ended)]
          exact .edit start stop made
        · rw [List.filter_cons_of_neg (by simpa using ended)]
          exact left
      -- the offset lies in what the first edit keeps, so no edit has ended before it
      · obtain ⟨middle, rfl, rfl⟩ := exists_of_append_eq_of_le
          (shape.symm.trans (List.append_assoc kept removed rest)) (by omega)
        have unended : ∀ other ∈ edit :: edits, offset < other.span.stop := by
          intro other member
          rcases List.mem_cons.1 member with rfl | tail
          · omega
          · have bounds := later.within other tail
            have otherSize := filled other member
            omega
        have none : (edit :: edits).filter (·.span.stop ≤ offset) = [] := by
          rw [List.filter_eq_nil_iff]
          intro other member
          have left := unended other member
          simpa using left
        have all : (edit :: edits).filter (offset < ·.span.stop) = edit :: edits := by
          rw [List.filter_eq_self]
          intro other member
          simpa using unended other member
        refine ⟨before, middle ++ edit.inserted.toList ++ after, by simp, ?_, ?_⟩
        · rw [none]
          exact .done position before
        · rw [all, ← List.append_assoc]
          refine .edit ?_ stop later
          rw [byteLength_append] at start
          omega

theorem eq_inserted {position : Nat} {text after : List Char} {edits : List Edit}
    (spliced : Spliced position text edits after)
    (filled : ∀ edit ∈ edits, edit.span.start < edit.span.stop) {edit : Edit}
    (member : edit ∈ edits) (start : edit.span.start = position)
    (stop : edit.span.stop = position + byteLength text) : after = edit.inserted.toList := by
  cases spliced with
  | done => simp at member
  | @edit _ kept removed rest after first edits keptLength removedLength later =>
      have size := filled first List.mem_cons_self
      rcases List.mem_cons.1 member with rfl | tail
      · rw [byteLength_append, byteLength_append] at stop
        have keptNone : kept = [] := byteLength_eq_zero.1 (by omega)
        have restNone : rest = [] := byteLength_eq_zero.1 (by omega)
        have last : edits = [] := by
          apply List.eq_nil_iff_forall_not_mem.2
          intro other behind
          have bounds := later.within other behind
          have otherSize := filled other (List.mem_cons_of_mem _ behind)
          rw [restNone, byteLength_nil] at bounds
          omega
        subst keptNone restNone last
        simp [later.eq_of_nil]
      · have bounds := later.within edit tail
        omega

end Spliced

section Window

variable {source code : String} {edits : List Edit}
  (spliced : Spliced 0 source.toList edits code.toList)
  (filled : ∀ edit ∈ edits, edit.span.start < edit.span.stop)

include spliced filled

/-- The text between two offsets that no edit holds inside is still there between the moved
offsets, with the edits between them made. -/
theorem cut_shift {start stop : Nat} (startBoundary : IsBoundary source start)
    (stopBoundary : IsBoundary source stop) (ordered : start ≤ stop)
    (startClear : Clear edits start) (stopClear : Clear edits stop) :
    ∃ old new : String, cut source start stop = .ok old ∧
      cut code (shift edits start) (shift edits stop) = .ok new ∧
      Spliced start old.toList
        ((edits.filter (·.span.stop ≤ stop)).filter (start < ·.span.stop)) new.toList := by
  obtain ⟨before, middle, after, shape, startLength, stopLength⟩ :=
    startBoundary.parts stopBoundary ordered
  obtain ⟨upTo, back, codeShape, outer, -⟩ := spliced.split shape
    (by rw [byteLength_append]; omega) filled stopClear
  have mem_edits {edit : Edit} (member : edit ∈ edits.filter (·.span.stop ≤ stop)) :
      edit ∈ edits := (List.mem_filter.1 member).1
  obtain ⟨front, changed, frontShape, inner, between⟩ := outer.split rfl
    (by rw [Nat.zero_add]; exact startLength) (fun edit member => filled edit (mem_edits member))
    (fun edit member => startClear edit (mem_edits member))
  have ended : (edits.filter (·.span.stop ≤ stop)).filter (·.span.stop ≤ start) =
      edits.filter (·.span.stop ≤ start) := by
    rw [List.filter_filter]
    apply List.filter_congr
    intro edit _
    rw [Bool.and_eq_left_iff_imp, decide_eq_true_eq, decide_eq_true_eq]
    omega
  rw [ended] at inner
  have frontLength : byteLength front = shift edits start := by
    have length := inner.length
    rw [shift]
    omega
  have upToLength : byteLength upTo = shift edits stop := by
    have length := outer.length
    rw [byteLength_append] at length
    rw [shift]
    omega
  refine ⟨String.ofList middle, String.ofList changed, ?_, ?_, by simpa using between⟩
  · exact cut_eq_ok_iff.2
      ⟨before, after, by simpa using shape, startLength, by simpa using stopLength⟩
  · refine cut_eq_ok_iff.2 ⟨front, back, by simpa [frontShape] using codeShape, frontLength, ?_⟩
    rw [← upToLength, ← frontLength, frontShape, byteLength_append, String.toList_ofList]

theorem shift_le_shift {start stop : Nat} (startBoundary : IsBoundary source start)
    (stopBoundary : IsBoundary source stop) (ordered : start ≤ stop)
    (startClear : Clear edits start) (stopClear : Clear edits stop) :
    shift edits start ≤ shift edits stop := by
  obtain ⟨old, new, -, moved, -⟩ :=
    cut_shift spliced filled startBoundary stopBoundary ordered startClear stopClear
  obtain ⟨_, _, -, -, length⟩ := cut_eq_ok_iff.1 moved
  omega

theorem isBoundary_shift {offset : Nat} (boundary : IsBoundary source offset)
    (clear : Clear edits offset) : IsBoundary code (shift edits offset) := by
  obtain ⟨old, new, -, moved, -⟩ :=
    cut_shift spliced filled boundary boundary (Nat.le_refl offset) clear clear
  obtain ⟨front, back, shape, length, -⟩ := cut_eq_ok_iff.1 moved
  exact ⟨front, new.toList ++ back, by rw [shape, List.append_assoc], length⟩

end Window

end NameLint
