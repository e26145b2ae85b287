/-!
# Similar words

How much two words resemble each other, from zero to one: the share of characters that they have in
common at nearby places, less a deduction for those that come in another order.
-/

namespace NameLint.Text

set_option autoImplicit false

/-- Takes the first free place of a character among the first `room` places, leaving out `skip`. -/
def takePlace (c : Char) : Nat → Nat → List (Char × Bool) → Option (List (Char × Bool))
  | _, 0, _ => none
  | _, _, [] => none
  | skip + 1, room + 1, place :: rest => (takePlace c skip room rest).map (place :: ·)
  | 0, room + 1, (held, taken) :: rest =>
      if !taken && c == held then some ((held, true) :: rest)
      else (takePlace c 0 room rest).map ((held, taken) :: ·)

/-- The characters that find a place, in order, and the places when all have looked. -/
def takePlaces (reach index : Nat) (places : List (Char × Bool)) :
    List Char → List Char × List (Char × Bool)
  | [] => ([], places)
  | c :: rest =>
      match takePlace c (index - reach) (index + reach + 1) places with
      | some places =>
          let (found, places) := takePlaces reach (index + 1) places rest
          (c :: found, places)
      | none => takePlaces reach (index + 1) places rest

def similarity (left right : List Char) : Float :=
  let reach := max left.length right.length / 2 - 1
  let (found, places) := takePlaces reach 0 (right.map (·, false)) left
  let taken := (places.filter (·.2)).map (·.1)
  let swaps := (found.zip taken).countP (fun pair => pair.1 != pair.2) / 2
  let common := Float.ofNat found.length
  if found.isEmpty then 0
  else
    (common / Float.ofNat left.length + common / Float.ofNat right.length +
      Float.ofNat (found.length - swaps) / common) / 3

def isSimilar (score : Float) : Bool :=
  score > 0.7

/-- The candidate that resembles a word most, if it is similar; of several the last. -/
def closest? (word : String) (candidates : List String) : Option String :=
  (candidates.foldl better none).map (·.2)
where
  better (best : Option (Float × String)) (candidate : String) : Option (Float × String) :=
    let score := similarity word.toList candidate.toList
    if isSimilar score && best.all (·.1 ≤ score) then some (score, candidate) else best

end NameLint.Text
