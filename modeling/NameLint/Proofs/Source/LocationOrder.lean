import NameLint.Proofs.Source.LineEnds

/-!
# The order of locations

Of two offsets the later one is on a later line, or on the same line behind more of its characters.
So locations are in the order of the offsets, and no two offsets have one location: the offset is
found again by counting the characters before the column from the start of the line.
-/

namespace NameLint.Source

open NameLint.Text

set_option autoImplicit false

/-- The location is on an earlier line, or further left on the same one. -/
def Location.Before (left right : Location) : Prop :=
  left.line.number < right.line.number ∨
    left.line.number = right.line.number ∧ left.column.number < right.column.number

namespace Location

theorem compare_eq_lt_iff {left right : Location} :
    left.compare right = .lt ↔ left.Before right := by
  simp only [compare, Ordinal.compare, Ordering.then_eq_lt, Nat.compare_eq_lt,
    Nat.compare_eq_eq, Before]

theorem Before.asymm {left right : Location} (before : left.Before right) :
    ¬ right.Before left := by
  unfold Before at *
  omega

theorem Before.ne {left right : Location} (before : left.Before right) : left ≠ right := by
  rintro rfl
  exact before.asymm before

end Location

theorem length_lt_of_byteLength_lt {front rest front' rest' : List Char}
    (same : front ++ rest = front' ++ rest') (shorter : byteLength front < byteLength front') :
    front.length < front'.length := by
  rcases exists_of_append_eq_of_le same (Nat.le_of_lt shorter) with ⟨between, rfl, -⟩
  rw [List.length_append]
  cases between with
  | nil =>
      rw [List.append_nil] at shorter
      exact absurd shorter (Nat.lt_irrefl _)
  | cons c between =>
      rw [List.length_cons]
      omega

namespace LineIndex

theorem location_before {text : String} {first second : Nat}
    (firstBoundary : IsBoundary text first) (secondBoundary : IsBoundary text second)
    (small : second < Ordinal.largest) (ordered : first < second) {left right : Location}
    (leftFound : (ofText text).location first text = .ok left)
    (rightFound : (ofText text).location second text = .ok right) : left.Before right := by
  rcases location_eq firstBoundary with ⟨before, line, after, shape, reached, listed, located⟩
  rcases location_eq secondBoundary with
    ⟨before', line', after', shape', reached', listed', located'⟩
  rw [leftFound, Except.ok.injEq] at located
  rw [rightFound, Except.ok.injEq] at located'
  subst located located'
  have fewer : (lineStartsFrom 0 text.toList).countP (· ≤ first) ≤
      (lineStartsFrom 0 text.toList).countP (· ≤ second) := by
    apply List.countP_mono_left
    intro start _ passed
    simp only [decide_eq_true_eq] at passed ⊢
    omega
  have lines := number_lineAt text (Nat.lt_trans ordered small)
  have lines' := number_lineAt text small
  rw [Location.Before]
  simp only
  rw [lines, lines']
  rcases Nat.lt_or_eq_of_le fewer with later | same
  · exact .inl (by omega)
  · refine .inr ⟨by omega, ?_⟩
    have sameIndex : ((ofText text).lineAt first).index = ((ofText text).lineAt second).index := by
      rw [Ordinal.index, Ordinal.index, lines, lines', same]
    rw [sameIndex, listed', Option.some.injEq] at listed
    -- both lines start at one place, and the second offset is further behind it
    rw [shape, List.append_assoc, List.append_assoc] at shape'
    rcases append_inj_of_byteLength shape' listed.symm with ⟨rfl, rests⟩
    have shorter : byteLength line < byteLength line' := by
      rw [byteLength_append] at reached reached'
      omega
    have columns := length_lt_of_byteLength_lt rests shorter
    have few := length_le_byteLength line'
    rw [byteLength_append] at reached'
    rw [Ordinal.number_ofIndex (by omega), Ordinal.number_ofIndex (by omega)]
    omega

/-- The offset of a location: behind as many characters from the start of its line as there are
columns before its own, if the text has them. -/
def offsetOf (index : LineIndex) (location : Location) (text : String) : Except Fault Nat := do
  let start ← index.lineStart location.line text
  let rest ← cutFrom text start
  if location.column.index ≤ rest.toList.length then
    return start + byteLength (rest.toList.take location.column.index)
  else throw .misplacedCut

theorem offsetOf_location {text : String} {offset : Nat} (boundary : IsBoundary text offset)
    (small : offset < Ordinal.largest) {location : Location}
    (found : (ofText text).location offset text = .ok location) :
    (ofText text).offsetOf location text = .ok offset := by
  rcases location_eq boundary with ⟨before, line, after, shape, reached, listed, located⟩
  rw [found, Except.ok.injEq] at located
  subst located
  have inside : ((ofText text).lineAt offset).index ≠ (ofText text).lineCount :=
    Nat.ne_of_lt (List.getElem?_eq_some_iff.1 listed).1
  have started : (ofText text).lineStart ((ofText text).lineAt offset) text =
      .ok (byteLength before) := by
    simp only [lineStart, if_neg inside, listed]
  have rest : cutFrom text (byteLength before) = .ok (String.ofList (line ++ after)) :=
    cutFrom_eq_ok_iff.2 ⟨before, by simpa using shape, rfl⟩
  have few := length_le_byteLength line
  rw [byteLength_append] at reached
  have counted : (Ordinal.ofIndex line.length).index = line.length :=
    Ordinal.index_ofIndex (by omega)
  simp only [offsetOf, started, rest, counted, bind, Except.bind, pure, Except.pure,
    String.toList_ofList, List.length_append, Nat.le_add_right, if_true, List.take_left, reached]

end LineIndex

/-- Every offset between two characters has a location, from which the offset is found again. The
locations of two offsets are in the order of the offsets, and only one offset has them. -/
theorem location_orders_and_determines_offsets {text : String}
    (short : Offset.endOf text < Offset.limit) {first second : Nat}
    (firstBoundary : IsBoundary text first) (secondBoundary : IsBoundary text second) :
    ∃ left right,
      (LineIndex.ofText text).location first text = .ok left ∧
      (LineIndex.ofText text).location second text = .ok right ∧
      (left.compare right = .lt ↔ first < second) ∧ (left = right ↔ first = second) ∧
      (LineIndex.ofText text).offsetOf left text = .ok first ∧
      (LineIndex.ofText text).offsetOf right text = .ok second := by
  have firstSmall := Ordinal.lt_largest_of_short short firstBoundary.le_endOf
  have secondSmall := Ordinal.lt_largest_of_short short secondBoundary.le_endOf
  rcases LineIndex.location_eq firstBoundary with ⟨_, _, _, _, _, _, leftFound⟩
  rcases LineIndex.location_eq secondBoundary with ⟨_, _, _, _, _, _, rightFound⟩
  have leftOffset := LineIndex.offsetOf_location firstBoundary firstSmall leftFound
  have rightOffset := LineIndex.offsetOf_location secondBoundary secondSmall rightFound
  refine ⟨_, _, leftFound, rightFound, ?_, ?_, leftOffset, rightOffset⟩
  · rw [Location.compare_eq_lt_iff]
    constructor
    · intro before
      rcases Nat.lt_trichotomy first second with ordered | rfl | reversed
      · exact ordered
      · rw [leftFound, Except.ok.injEq] at rightFound
        exact absurd rightFound before.ne
      · exact absurd (LineIndex.location_before secondBoundary firstBoundary
          firstSmall reversed rightFound leftFound) before.asymm
    · intro ordered
      exact LineIndex.location_before firstBoundary secondBoundary secondSmall
        ordered leftFound rightFound
  · constructor
    · intro same
      rw [same, rightOffset, Except.ok.injEq] at leftOffset
      exact leftOffset.symm
    · rintro rfl
      rw [leftFound, Except.ok.injEq] at rightFound
      exact rightFound

/-- Between the two halves of a line end, and two characters into a later line. -/
theorem location_orders_mixedEndings :
    Offset.endOf mixedEndings < Offset.limit ∧ IsBoundary mixedEndings 3 ∧
      IsBoundary mixedEndings 8 ∧
      ∃ left right,
        (LineIndex.ofText mixedEndings).location 3 mixedEndings = .ok left ∧
        (LineIndex.ofText mixedEndings).location 8 mixedEndings = .ok right ∧
        left = ⟨.ofIndex 0, .ofIndex 2⟩ ∧ right = ⟨.ofIndex 2, .ofIndex 2⟩ ∧
        left.compare right = .lt ∧ left ≠ right ∧
        (LineIndex.ofText mixedEndings).offsetOf left mixedEndings = .ok 3 ∧
        (LineIndex.ofText mixedEndings).offsetOf right mixedEndings = .ok 8 := by
  have short : Offset.endOf mixedEndings < Offset.limit := by decide
  have inner : IsBoundary mixedEndings 3 := by decide
  have later : IsBoundary mixedEndings 8 := by decide
  rcases location_orders_and_determines_offsets short inner later with
    ⟨left, right, leftFound, rightFound, ordered, same, leftOffset, rightOffset⟩
  have leftPlace : (LineIndex.ofText mixedEndings).location 3 mixedEndings =
      .ok ⟨.ofIndex 0, .ofIndex 2⟩ := by decide
  have rightPlace : (LineIndex.ofText mixedEndings).location 8 mixedEndings =
      .ok ⟨.ofIndex 2, .ofIndex 2⟩ := by decide
  rw [leftFound, Except.ok.injEq] at leftPlace
  rw [rightFound, Except.ok.injEq] at rightPlace
  exact ⟨short, inner, later, left, right, leftFound, rightFound, leftPlace, rightPlace,
    ordered.2 (by decide), fun equal => absurd (same.1 equal) (by decide), leftOffset, rightOffset⟩

end NameLint.Source
