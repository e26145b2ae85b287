import NameLint.Text.Span

/-!
# Shared offsets

The common part of two spans holds exactly the offsets that both of them hold, and there is none
only where they hold no offset together. Spans that hold an offset together overlap. The converse
needs both of them to be filled: an empty span holds no offset, and yet it overlaps a span around
it.
-/

namespace NameLint.Text.Span

set_option autoImplicit false

variable {span other : Span}

theorem contains_iff {offset : Nat} :
    span.contains offset ↔ span.start ≤ offset ∧ offset < span.stop := by
  simp [contains]

theorem isEmpty_iff : span.isEmpty ↔ span.start = span.stop := by
  simp [isEmpty]

theorem overlaps_iff :
    span.overlaps other ↔ span.start < other.stop ∧ other.start < span.stop := by
  simp [overlaps]

theorem overlaps_comm (span other : Span) : span.overlaps other = other.overlaps span := by
  rw [overlaps, overlaps, Bool.and_comm]

theorem not_overlaps_of_le (apart : span.stop ≤ other.start) : ¬span.overlaps other := by
  rw [overlaps_iff]
  omega

theorem overlaps_self (filled : span.start < span.stop) : span.overlaps span :=
  overlaps_iff.2 ⟨filled, filled⟩

theorem intersect_eq_some_iff {common : Span} :
    span.intersect other = some common ↔
      common.start = max span.start other.start ∧ common.stop = min span.stop other.stop := by
  have ordered := common.start_le_stop
  simp only [intersect]
  constructor
  · intro met
    split at met
    · cases met
      exact ⟨rfl, rfl⟩
    · cases met
  · rintro ⟨start, stop⟩
    rw [dif_pos (by omega), Option.some.injEq]
    exact Span.ext start.symm stop.symm

theorem intersect_eq_none_iff :
    span.intersect other = none ↔ min span.stop other.stop < max span.start other.start := by
  simp only [intersect, dite_eq_right_iff, reduceCtorEq, imp_false, Nat.not_le]

/-- There is an offset that both spans hold. -/
def Shares (span other : Span) : Prop :=
  ∃ offset, span.contains offset ∧ other.contains offset

/-- The span is empty, and the other one goes on to both sides of it. -/
def StandsInside (span other : Span) : Prop :=
  span.isEmpty ∧ other.start < span.start ∧ span.stop < other.stop

/-- If the spans hold any offset together, they hold the one where the later of them starts. -/
theorem shares_iff :
    span.Shares other ↔ max span.start other.start < min span.stop other.stop := by
  simp only [Shares, contains_iff]
  constructor
  · rintro ⟨offset, within, within'⟩
    omega
  · intro ordered
    refine ⟨max span.start other.start, ?_, ?_⟩
    · omega
    · omega

/-- Of two spans of which each starts before the other one stops, one may still be empty. -/
theorem overlaps_iff_shares_or_standsInside :
    span.overlaps other ↔
      span.Shares other ∨ span.StandsInside other ∨ other.StandsInside span := by
  have ordered := span.start_le_stop
  have ordered' := other.start_le_stop
  rw [overlaps_iff, shares_iff, StandsInside, StandsInside, isEmpty_iff, isEmpty_iff]
  omega

theorem contains_of_intersect {common : Span} (met : span.intersect other = some common)
    (offset : Nat) : common.contains offset ↔ span.contains offset ∧ other.contains offset := by
  obtain ⟨start, stop⟩ := intersect_eq_some_iff.1 met
  rw [contains_iff, contains_iff, contains_iff, start, stop]
  omega

theorem exists_filled_intersect_iff :
    (∃ common, span.intersect other = some common ∧ ¬common.isEmpty) ↔ span.Shares other := by
  simp only [intersect_eq_some_iff, isEmpty_iff, shares_iff]
  constructor
  · rintro ⟨common, ⟨start, stop⟩, filled⟩
    have ordered := common.start_le_stop
    omega
  · intro ordered
    exact ⟨⟨_, _, Nat.le_of_lt ordered⟩, ⟨rfl, rfl⟩, Nat.ne_of_lt ordered⟩

theorem not_shares_of_intersect_eq_none (unmet : span.intersect other = none) :
    ¬span.Shares other := by
  rw [intersect_eq_none_iff] at unmet
  rw [shares_iff]
  omega

/-- Spans overlap if they share an offset, and else only where an empty one stands inside the other.
The common part knows no such exception: it is filled if, and only if, an offset is shared, it holds
exactly the shared offsets, and it is missing only where there are none. -/
theorem overlap_and_common_part (span other : Span) :
    (span.overlaps other ↔
      span.Shares other ∨ span.StandsInside other ∨ other.StandsInside span) ∧
    ((∃ common, span.intersect other = some common ∧ ¬common.isEmpty) ↔ span.Shares other) ∧
    (∀ common, span.intersect other = some common → ∀ offset,
      common.contains offset ↔ span.contains offset ∧ other.contains offset) ∧
    (span.intersect other = none → ¬span.Shares other) :=
  ⟨overlaps_iff_shares_or_standsInside, exists_filled_intersect_iff,
    fun _ met => contains_of_intersect met, not_shares_of_intersect_eq_none⟩

/-- The empty span behind the second of four bytes overlaps them and shares none with them. -/
theorem not_always_overlaps_iff_shares :
    ¬∀ span other : Span, span.overlaps other ↔ span.Shares other := by
  intro agree
  have shares := (agree ⟨0, 4, by decide⟩ ⟨2, 2, by decide⟩).1 (by decide)
  rw [shares_iff] at shares
  exact absurd shares (by decide)

end NameLint.Text.Span
