/-!
# Raw text

Names and paths are bytes. Mostly these are text, but they need not be. What is no text is shown
with a replacement character for every character that breaks off and for every byte that starts
none.
-/

namespace NameLint.Files

set_option autoImplicit false

structure RawText where
  bytes : List UInt8
deriving DecidableEq, Repr

namespace RawText

def ofString (text : String) : RawText :=
  ⟨text.toByteArray.data.toList⟩

instance : Coe String RawText :=
  ⟨ofString⟩

def size (raw : RawText) : Nat :=
  raw.bytes.length

def isEmpty (raw : RawText) : Bool :=
  raw.bytes.isEmpty

instance : Ord RawText :=
  ⟨fun raw other => List.compareLex compare raw.bytes other.bytes⟩

/-- The text that the bytes are, if they are one. -/
def text? (raw : RawText) : Option String :=
  String.fromUTF8? ⟨raw.bytes.toArray⟩

def firstChar? (bytes : List UInt8) : Option Char :=
  ByteArray.utf8DecodeChar? ⟨(bytes.take 4).toArray⟩ 0

/-- How many bytes follow the first one of a character, and the bounds of the next. -/
def trailOf (lead : UInt8) : Nat × UInt8 × UInt8 :=
  if lead < 0xC2 ∨ 0xF4 < lead then (0, 0x80, 0xBF)
  else if lead < 0xE0 then (1, 0x80, 0xBF)
  else if lead = 0xE0 then (2, 0xA0, 0xBF)
  else if lead = 0xED then (2, 0x80, 0x9F)
  else if lead < 0xF0 then (2, 0x80, 0xBF)
  else if lead = 0xF0 then (3, 0x90, 0xBF)
  else if lead < 0xF4 then (3, 0x80, 0xBF)
  else (3, 0x80, 0x8F)

/-- How many bytes behind the first one belong to a character that breaks off. -/
def brokenSize (lead : UInt8) (rest : List UInt8) : Nat :=
  let (count, low, high) := trailOf lead
  match rest.take count with
  | [] => 0
  | next :: more =>
      if low ≤ next ∧ next ≤ high then
        1 + (more.takeWhile fun byte => 0x80 ≤ byte ∧ byte ≤ 0xBF).length
      else 0

def shownFrom (bytes : List UInt8) : List Char :=
  match bytes with
  | [] => []
  | lead :: rest =>
      match firstChar? (lead :: rest) with
      | some c => c :: shownFrom (rest.drop (c.utf8Size - 1))
      | none => '\uFFFD' :: shownFrom (rest.drop (brokenSize lead rest))
termination_by bytes.length
decreasing_by all_goals (rw [List.length_drop, List.length_cons]; omega)

def shown (raw : RawText) : String :=
  String.ofList (shownFrom raw.bytes)

instance : CoeOut RawText String :=
  ⟨shown⟩

end RawText

end NameLint.Files
