import Mathlib.Data.List.Basic
import NameLint.Files.Pathname

/-!
# Raw text and text

Text is kept as the bytes of its characters. It is read back from these and shown as it is, and it
starts with the byte of a plain character exactly if that is the first one of the text.
-/

namespace NameLint.Files

set_option autoImplicit false

namespace RawText

instance : Std.TransOrd RawText where
  eq_swap {raw other} :=
    @Std.OrientedCmp.eq_swap _ (List.compareLex (α := UInt8) compare) _ raw.bytes other.bytes
  isLE_trans {first second third} :=
    @Std.TransCmp.isLE_trans _ (List.compareLex (α := UInt8) compare) _ first.bytes second.bytes
      third.bytes

instance : Std.LawfulEqOrd RawText where
  eq_of_compare {raw other} same := by
    have bytes : raw.bytes = other.bytes :=
      @Std.LawfulEqCmp.eq_of_compare _ (List.compareLex (α := UInt8) compare) _ _ _ same
    cases raw
    cases bytes
    rfl

theorem bytes_ofString (text : String) :
    (ofString text).bytes = text.toList.flatMap String.utf8EncodeChar := by
  have own : text.toByteArray = text.toList.utf8Encode := by
    rw [← String.toByteArray_ofList, String.ofList_toList]
  rw [ofString, own, List.utf8Encode, List.data_toByteArray]

section Reading

theorem text?_eq_some_iff {raw : RawText} {text : String} :
    raw.text? = some text ↔ raw = text := by
  rw [text?, String.fromUTF8?]
  constructor
  · intro read
    split at read
    · cases read
      rfl
    · cases read
  · rintro rfl
    have own : ByteArray.mk (ofString text).bytes.toArray = text.toByteArray := by
      rw [ofString, Array.toArray_toList]
    rw [own, dif_pos text.isValidUTF8]
    rfl

/-- The bytes are those of a text. -/
def IsText (raw : RawText) : Prop :=
  ∃ text : String, raw = text

/-- A character of one byte is that byte, and no other character starts with it. -/
theorem head?_utf8EncodeChar {c plain : Char} (small : plain.toNat < 128) :
    (String.utf8EncodeChar c).head? = some plain.toUInt8 ↔ c = plain := by
  have size : plain.toUInt8.toNat = plain.toNat := by
    rw [Char.toUInt8, UInt32.toNat_toUInt8]
    exact Nat.mod_eq_of_lt (by simp only [Char.toNat] at small; omega)
  have same (number : Nat) : UInt8.ofNat number = plain.toUInt8 ↔ number % 256 = plain.toNat := by
    rw [← UInt8.toNat_inj, size, UInt8.toNat_ofNat']
  rw [← Char.toNat_inj, Char.toNat, String.utf8EncodeChar]
  by_cases one : c.val.toNat ≤ 127
  · rw [if_pos one, List.head?_cons, Option.some.injEq, same, Nat.mod_eq_of_lt (by omega)]
  -- the first of several bytes is 192 or more
  · refine iff_of_false ?_ (by omega)
    rw [if_neg one]
    split
    · rw [List.head?_cons, Option.some.injEq, same]
      omega
    · split <;> rw [List.head?_cons, Option.some.injEq, same] <;> omega

theorem utf8EncodeChar_ne_nil (c : Char) : String.utf8EncodeChar c ≠ [] := by
  have size := String.length_utf8EncodeChar c
  rintro none
  rw [none, List.length_nil] at size
  exact absurd c.utf8Size_pos (by omega)

theorem head?_bytes_ofString {text : String} {plain : Char} (small : plain.toNat < 128) :
    (ofString text).bytes.head? = some plain.toUInt8 ↔ text.toList.head? = some plain := by
  rw [bytes_ofString]
  cases text.toList with
  | nil => simp
  | cons c rest =>
      rw [List.flatMap_cons, List.head?_append_of_ne_nil _ (utf8EncodeChar_ne_nil c),
        head?_utf8EncodeChar small, List.head?_cons, Option.some.injEq]

end Reading

section Showing

theorem firstChar?_append (c : Char) (rest : List UInt8) :
    firstChar? (String.utf8EncodeChar c ++ rest) = some c := by
  have front : (String.utf8EncodeChar c).length ≤ 4 := by
    rw [String.length_utf8EncodeChar]
    exact c.utf8Size_le_four
  have whole : ByteArray.mk ((String.utf8EncodeChar c ++ rest).take 4).toArray =
      (String.utf8EncodeChar c).toByteArray ++
        (rest.take (4 - (String.utf8EncodeChar c).length)).toByteArray := by
    rw [List.take_append, List.take_of_length_le front, ← List.toByteArray_append]
    exact ByteArray.ext List.data_toByteArray.symm
  rw [firstChar?, whole, ByteArray.utf8DecodeChar?_utf8EncodeChar_append]

theorem shownFrom_append (c : Char) (rest : List UInt8) :
    shownFrom (String.utf8EncodeChar c ++ rest) = c :: shownFrom rest := by
  have first := firstChar?_append c rest
  have size := String.length_utf8EncodeChar c
  cases bytes : String.utf8EncodeChar c with
  | nil => exact absurd bytes (utf8EncodeChar_ne_nil c)
  | cons lead more =>
      rw [bytes, List.cons_append] at first
      rw [bytes] at size
      rw [List.cons_append, shownFrom, first]
      simp only [← size, List.length_cons, Nat.add_sub_cancel, List.drop_left]

@[simp] theorem shown_ofString (text : String) : (ofString text).shown = text := by
  have all (letters : List Char) :
      shownFrom (letters.flatMap String.utf8EncodeChar) = letters := by
    induction letters with
    | nil => rw [List.flatMap_nil, shownFrom]
    | cons c letters ih => rw [List.flatMap_cons, shownFrom_append, ih]
  rw [shown, bytes_ofString, all, String.ofList_toList]

example : shown ⟨[0x2E, 0xFF, 0xE2, 0x82, 0x41]⟩ = ".\uFFFD\uFFFDA" := by decide +kernel

end Showing

end RawText

end NameLint.Files
