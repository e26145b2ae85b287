import Mathlib.Data.List.Basic
import NameLint.Text.Span

/-!
# What a cut takes

A cut succeeds exactly when the text falls apart at both offsets, and then it is the part between
them. Everything about offsets is reduced to such decompositions of the list of characters, so that
no later argument counts bytes by itself.
-/

namespace NameLint.Text

set_option autoImplicit false

def byteLength : List Char → Nat
  | [] => 0
  | c :: rest => c.utf8Size + byteLength rest

@[simp] theorem byteLength_nil : byteLength [] = 0 := rfl

@[simp] theorem byteLength_append (before after : List Char) :
    byteLength (before ++ after) = byteLength before + byteLength after := by
  induction before with
  | nil => simp [byteLength]
  | cons c rest ih =>
      simp only [List.cons_append, byteLength, ih]
      omega

theorem byteLength_eq_zero {text : List Char} : byteLength text = 0 ↔ text = [] := by
  cases text with
  | nil => simp
  | cons c rest =>
      have positive := c.utf8Size_pos
      simp only [byteLength, reduceCtorEq, iff_false]
      omega

theorem length_le_byteLength (text : List Char) : text.length ≤ byteLength text := by
  induction text with
  | nil => exact Nat.le_refl 0
  | cons c rest ih =>
      have positive := c.utf8Size_pos
      rw [List.length_cons, byteLength]
      omega

theorem endOf_eq (text : String) : Offset.endOf text = byteLength text.toList := by
  have ofCharacters (characters : List Char) :
      (String.ofList characters).utf8ByteSize = byteLength characters := by
    induction characters with
    | nil => simp
    | cons c rest ih =>
        rw [← List.singleton_append, String.ofList_append, String.utf8ByteSize_append, ih,
          byteLength_append]
        simp [byteLength]
  rw [Offset.endOf, ← ofCharacters, String.ofList_toList]

theorem append_inj_of_byteLength {before before' after after' : List Char}
    (same : before ++ after = before' ++ after')
    (length : byteLength before = byteLength before') : before = before' ∧ after = after' := by
  induction before generalizing before' with
  | nil =>
      have none := byteLength_eq_zero.1 length.symm
      subst none
      exact ⟨rfl, same⟩
  | cons c rest ih =>
      cases before' with
      | nil => exact absurd (byteLength_eq_zero.1 length) (by simp)
      | cons c' rest' =>
          simp only [List.cons_append, List.cons.injEq] at same
          obtain ⟨rfl, tails⟩ := same
          have inner := ih tails (by simpa [byteLength] using length)
          exact ⟨by rw [inner.1], inner.2⟩

/-- A point between two characters of the text, or at one of its ends. -/
def IsBoundary (text : String) (offset : Nat) : Prop :=
  ∃ before after, text.toList = before ++ after ∧ byteLength before = offset

theorem IsBoundary.le_endOf {text : String} {offset : Nat} (boundary : IsBoundary text offset) :
    offset ≤ Offset.endOf text := by
  rcases boundary with ⟨before, after, shape, rfl⟩
  rw [endOf_eq, shape, byteLength_append]
  exact Nat.le_add_right _ _

theorem charactersIn_append (before after : List Char) (count : Nat) :
    charactersIn (byteLength before) count (before ++ after) = some (count + before.length) := by
  induction before generalizing count with
  | nil => cases after <;> simp [charactersIn]
  | cons c rest ih =>
      have positive := c.utf8Size_pos
      have filled : c.utf8Size + byteLength rest ≠ 0 := by omega
      simp only [List.cons_append, charactersIn, byteLength, if_neg filled, Nat.le_add_right,
        if_true, Nat.add_sub_cancel_left, ih, List.length_cons]
      congr 1
      omega

theorem exists_of_charactersIn {bytes count total : Nat} {text : List Char}
    (found : charactersIn bytes count text = some total) :
    ∃ before after, text = before ++ after ∧ byteLength before = bytes ∧
      total = count + before.length := by
  induction text generalizing bytes count with
  | nil =>
      simp only [charactersIn] at found
      split at found
      · next empty => exact ⟨[], [], rfl, empty.symm, by simpa using found.symm⟩
      · simp at found
  | cons c rest ih =>
      simp only [charactersIn] at found
      split at found
      · next empty => exact ⟨[], c :: rest, rfl, empty.symm, by simpa using found.symm⟩
      · split at found
        · next fits =>
            obtain ⟨before, after, rfl, length, rfl⟩ := ih found
            refine ⟨c :: before, after, rfl, ?_, ?_⟩
            · simp only [byteLength]
              omega
            · simp only [List.length_cons]
              omega
        · simp at found

theorem splitBytes_eq_some_iff {bytes : Nat} {text before after : List Char} :
    splitBytes bytes text = some (before, after) ↔
      text = before ++ after ∧ byteLength before = bytes := by
  constructor
  · intro found
    obtain ⟨total, counted, parts⟩ := Option.map_eq_some_iff.1 found
    obtain ⟨front, back, rfl, length, rfl⟩ := exists_of_charactersIn counted
    simp only [Nat.zero_add, List.splitAt_eq, List.take_left, List.drop_left,
      Prod.mk.injEq] at parts
    obtain ⟨rfl, rfl⟩ := parts
    exact ⟨rfl, length⟩
  · rintro ⟨rfl, rfl⟩
    simp [splitBytes, charactersIn_append]

theorem cut_eq_ok_iff {text piece : String} {start stop : Nat} :
    cut text start stop = .ok piece ↔
      ∃ before after, text.toList = before ++ piece.toList ++ after ∧
        byteLength before = start ∧ start + byteLength piece.toList = stop := by
  constructor
  · intro done
    unfold cut at done
    split at done
    · next ordered =>
        split at done
        · next before rest outer =>
            split at done
            · next middle after inner =>
                have front := splitBytes_eq_some_iff.1 outer
                have back := splitBytes_eq_some_iff.1 inner
                cases done
                refine ⟨before, after, ?_, front.2, ?_⟩
                · rw [front.1, back.1, String.toList_ofList, List.append_assoc]
                · rw [String.toList_ofList, back.2]
                  omega
            · simp at done
        · simp at done
    · simp at done
  · rintro ⟨before, after, shape, rfl, rfl⟩
    have outer : splitBytes (byteLength before) text.toList =
        some (before, piece.toList ++ after) :=
      splitBytes_eq_some_iff.2 ⟨by rw [shape, List.append_assoc], rfl⟩
    have inner : splitBytes (byteLength before + byteLength piece.toList - byteLength before)
        (piece.toList ++ after) = some (piece.toList, after) :=
      splitBytes_eq_some_iff.2 ⟨rfl, by omega⟩
    simp only [cut, Nat.le_add_right, if_true, outer, inner, String.ofList_toList]

theorem cutFrom_eq_ok_iff {text piece : String} {start : Nat} :
    cutFrom text start = .ok piece ↔
      ∃ before, text.toList = before ++ piece.toList ∧ byteLength before = start := by
  rw [cutFrom, cut_eq_ok_iff, endOf_eq]
  constructor
  · rintro ⟨before, after, shape, rfl, length⟩
    rw [shape, byteLength_append, byteLength_append] at length
    have none : after = [] := byteLength_eq_zero.1 (by omega)
    subst none
    exact ⟨before, by simpa using shape, rfl⟩
  · rintro ⟨before, shape, rfl⟩
    exact ⟨before, [], by simpa using shape, rfl, by rw [shape, byteLength_append]⟩

theorem exists_of_append_eq_of_le {before after front back : List Char}
    (same : before ++ after = front ++ back) (ordered : byteLength before ≤ byteLength front) :
    ∃ middle, front = before ++ middle ∧ after = middle ++ back := by
  rcases List.append_eq_append_iff.1 same with ⟨middle, rfl, rfl⟩ | ⟨middle, rfl, rfl⟩
  · exact ⟨middle, rfl, rfl⟩
  · have none : middle = [] := byteLength_eq_zero.1 (by
      rw [byteLength_append] at ordered
      omega)
    subst none
    exact ⟨[], by simp, by simp⟩

theorem IsBoundary.parts {text : String} {start stop : Nat} (first : IsBoundary text start)
    (second : IsBoundary text stop) (ordered : start ≤ stop) :
    ∃ before middle after, text.toList = before ++ middle ++ after ∧
      byteLength before = start ∧ start + byteLength middle = stop := by
  obtain ⟨before, rest, shape, rfl⟩ := first
  obtain ⟨front, after, shape', rfl⟩ := second
  rw [shape] at shape'
  obtain ⟨middle, rfl, rfl⟩ := exists_of_append_eq_of_le shape' ordered
  exact ⟨before, middle, after, by rw [shape, List.append_assoc], rfl, by simp⟩

theorem Span.text_of_append {text : String} {before piece after : List Char} {span : Span}
    (shape : text.toList = before ++ piece ++ after) (start : byteLength before = span.start)
    (stop : span.start + byteLength piece = span.stop) :
    span.text text = .ok (String.ofList piece) :=
  cut_eq_ok_iff.2 ⟨before, after, by simpa using shape, start, by simpa using stop⟩

theorem Span.text_ok {text : String} {span : Span} (start : IsBoundary text span.start)
    (stop : IsBoundary text span.stop) : ∃ piece, span.text text = .ok piece := by
  obtain ⟨before, middle, after, shape, first, second⟩ := start.parts stop span.start_le_stop
  exact ⟨String.ofList middle, Span.text_of_append shape first second⟩

theorem Span.isBoundary_of_text {text piece : String} {span : Span}
    (found : span.text text = .ok piece) :
    IsBoundary text span.start ∧ IsBoundary text span.stop := by
  obtain ⟨before, after, shape, start, stop⟩ := cut_eq_ok_iff.1 found
  refine ⟨⟨before, piece.toList ++ after, by rw [shape, List.append_assoc], start⟩,
    before ++ piece.toList, after, shape, ?_⟩
  rw [byteLength_append, start, stop]

instance (text : String) (offset : Nat) : Decidable (IsBoundary text offset) :=
  decidable_of_iff ((splitBytes offset text.toList).isSome = true) (by
    rw [Option.isSome_iff_exists]
    constructor
    · rintro ⟨⟨before, after⟩, found⟩
      exact ⟨before, after, splitBytes_eq_some_iff.1 found⟩
    · rintro ⟨before, after, shape⟩
      exact ⟨(before, after), splitBytes_eq_some_iff.2 shape⟩)

end NameLint.Text
