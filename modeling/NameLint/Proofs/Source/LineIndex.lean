import Mathlib.Data.List.TakeWhile
import NameLint.Proofs.Fault
import NameLint.Proofs.Text.Cut
import NameLint.Source.LineIndex

/-!
# Where an offset is

The line of an offset starts at one of the line starts, and this start is not behind the offset. So
the text between the two exists, and the column counts its characters. In ASCII text their number is
the difference of the offsets.
-/

namespace NameLint.Source

open NameLint.Text

set_option autoImplicit false

theorem Ordinal.index_ofIndex_le (index : Nat) : (Ordinal.ofIndex index).index ≤ index := by
  simp only [Ordinal.index, Ordinal.ofIndex]
  omega

theorem byteLength_of_ascii {text : List Char} (ascii : ∀ c ∈ text, c.toNat < 128) :
    byteLength text = text.length := by
  induction text with
  | nil => rfl
  | cons c rest ih =>
      have single : c.utf8Size = 1 := by
        rw [Char.utf8Size_eq_one_iff, UInt32.le_iff_toNat_le]
        have small := ascii c List.mem_cons_self
        have value : c.toNat = c.val.toNat := rfl
        have bound : (127 : UInt32).toNat = 127 := rfl
        omega
      rw [byteLength, single, ih fun other member => ascii other (List.mem_cons_of_mem _ member),
        List.length_cons]
      omega

/-- A line starts behind a character that ends the line before. -/
theorem mem_lineStartsFrom_iff {offset start : Nat} {text : List Char} :
    start ∈ lineStartsFrom offset text ↔ ∃ before c after, text = before ++ c :: after ∧
      offset + byteLength before + c.utf8Size = start ∧
      (c = '\n' ∨ c = '\r' ∧ after.head? ≠ some '\n') := by
  induction text generalizing offset with
  | nil => simp [lineStartsFrom]
  | cons first rest ih =>
      have split : start ∈ lineStartsFrom offset (first :: rest) ↔
          (first = '\n' ∨ first = '\r' ∧ rest.head? ≠ some '\n') ∧
              offset + first.utf8Size = start ∨
            start ∈ lineStartsFrom (offset + first.utf8Size) rest := by
        simp only [lineStartsFrom]
        by_cases ends : first = '\n' ∨ first = '\r' ∧ rest.head? ≠ some '\n'
        · rw [if_pos (by simpa using ends), List.mem_cons, and_iff_right ends, eq_comm]
        · rw [if_neg (by simpa using ends)]
          simp only [ends, false_and, false_or]
      rw [split, ih]
      constructor
      · rintro (⟨ends, same⟩ | ⟨before, c, after, rfl, same, ends⟩)
        · exact ⟨[], first, rest, rfl, same, ends⟩
        · refine ⟨first :: before, c, after, rfl, ?_, ends⟩
          rw [byteLength]
          omega
      · rintro ⟨before, c, after, shape, same, ends⟩
        cases before with
        | nil =>
            cases shape
            exact .inl ⟨ends, same⟩
        | cons _ before =>
            cases shape
            refine .inr ⟨before, c, after, rfl, ?_, ends⟩
            rw [byteLength] at same
            omega

namespace LineIndex

theorem isBoundary_of_mem_starts {text : String} {start : Nat}
    (member : start ∈ (ofText text).starts) : IsBoundary text start := by
  rcases List.mem_cons.1 member with rfl | later
  · exact ⟨[], text.toList, rfl, rfl⟩
  · rcases mem_lineStartsFrom_iff.1 later with ⟨before, c, after, shape, same, -⟩
    refine ⟨before ++ [c], after, by simpa using shape, ?_⟩
    rw [byteLength_append, byteLength, byteLength]
    omega

/-- The line of an offset has a start, and that is not behind the offset. -/
theorem exists_start (text : String) (offset : Nat) :
    ∃ start, (ofText text).starts[((ofText text).lineAt offset).index]? = some start ∧
      start ≤ offset := by
  generalize listed : (ofText text).starts = starts
  have first : starts = 0 :: starts.tail := by
    rw [← listed]
    rfl
  have passed : 0 < (starts.takeWhile (· ≤ offset)).length := by
    rw [first]
    simp
  have within : ((ofText text).lineAt offset).index < (starts.takeWhile (· ≤ offset)).length := by
    have bound := Ordinal.index_ofIndex_le ((starts.takeWhile (· ≤ offset)).length - 1)
    rw [lineAt, listed]
    omega
  refine ⟨_, List.prefix_iff_getElem?.1 (List.takeWhile_prefix _) _ within, ?_⟩
  simpa using List.mem_takeWhile_imp (List.getElem_mem within)

theorem column_eq {text : String} {before middle after : List Char}
    (shape : text.toList = before ++ middle ++ after) :
    ((ofText text).ascii = true →
      Offset.difference (byteLength (before ++ middle)) (byteLength before) = .ok middle.length) ∧
    location.charactersBetween text (byteLength before) (byteLength (before ++ middle)) =
      .ok middle.length := by
  have ordered : byteLength before ≤ byteLength (before ++ middle) := by
    rw [byteLength_append]
    exact Nat.le_add_right _ _
  constructor
  · intro ascii
    have single : byteLength middle = middle.length := by
      apply byteLength_of_ascii
      intro c member
      have all := List.all_eq_true.1 ascii c (by simp [shape, member])
      simpa using all
    simp only [Offset.difference, Offset.difference?, if_pos ordered]
    rw [byteLength_append, single, Nat.add_sub_cancel_left]
  · have cut : Span.text ⟨byteLength before, byteLength (before ++ middle), ordered⟩ text =
        .ok (String.ofList middle) :=
      cut_eq_ok_iff.2 ⟨before, after, by simpa using shape, rfl, by simp⟩
    simp only [location.charactersBetween, Span.ofBounds, dif_pos ordered, bind, Except.bind, cut,
      String.toList_ofList, pure, Except.pure]

/-- A location names the line of the offset and counts the characters from the start of the line. -/
theorem location_eq {text : String} {offset : Nat} (boundary : IsBoundary text offset) :
    ∃ before middle after, text.toList = before ++ middle ++ after ∧
      byteLength (before ++ middle) = offset ∧
      (ofText text).starts[((ofText text).lineAt offset).index]? = some (byteLength before) ∧
      (ofText text).location offset text =
        .ok ⟨(ofText text).lineAt offset, .ofIndex middle.length⟩ := by
  obtain ⟨start, listed, ordered⟩ := exists_start text offset
  have startBoundary := isBoundary_of_mem_starts (List.mem_of_getElem? listed)
  obtain ⟨before, middle, after, shape, rfl, reached⟩ := startBoundary.parts boundary ordered
  rw [← byteLength_append] at reached
  refine ⟨before, middle, after, shape, reached, listed, ?_⟩
  have inside : ((ofText text).lineAt offset).index ≠ (ofText text).lineCount :=
    Nat.ne_of_lt (List.getElem?_eq_some_iff.1 listed).1
  have started : (ofText text).lineStart ((ofText text).lineAt offset) text =
      .ok (byteLength before) := by
    simp only [lineStart, if_neg inside, listed]
  obtain ⟨difference, counted⟩ := column_eq shape
  rw [reached] at difference counted
  simp only [location, started, bind, Except.bind, counted]
  split
  · next ascii =>
      rw [difference ascii]
      rfl
  · rfl

end LineIndex

end NameLint.Source
