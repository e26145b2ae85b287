import Mathlib.Data.List.Basic

/-!
# Sorting parts of a list

A merge sort is stable, so that the first item of a list parts the sorted rest into what has to go
before it and what stays behind. Hence a list with items left out is sorted to the sorted list with
the same items left out, and a list with one more item to the sorted list with this item behind all
that it was not in front of. What is sorted by a number is known when the items of every number are.
-/

namespace NameLint

set_option autoImplicit false

section Stable

variable {Item : Type} {le : Item → Item → Bool}
  (trans : ∀ first second third, le first second = true → le second third = true →
    le first third = true)
  (total : ∀ first second, (le first second || le second first) = true)

include trans total

theorem mergeSort_cons_eq (item : Item) (rest : List Item) :
    (item :: rest).mergeSort le = (rest.mergeSort le).filter (!le item ·) ++
      item :: (rest.mergeSort le).filter (le item ·) := by
  obtain ⟨before, behind, whole, parts, smaller⟩ := List.mergeSort_cons trans total item rest
  have sorted := List.pairwise_mergeSort trans total (item :: rest)
  rw [whole] at sorted
  have larger : ∀ other ∈ behind, le item other = true := fun other member =>
    List.rel_of_pairwise_cons (List.pairwise_append.1 sorted).2.1 member
  have none : before.filter (le item ·) = [] := by
    rw [List.filter_eq_nil_iff]
    intro other member
    simpa using smaller other member
  have none' : behind.filter (!le item ·) = [] := by
    rw [List.filter_eq_nil_iff]
    intro other member
    simpa using larger other member
  rw [whole, parts, List.filter_append, List.filter_append, none, none',
    List.filter_eq_self.2 smaller, List.filter_eq_self.2 larger, List.append_nil, List.nil_append]

theorem mergeSort_sublist_mergeSort {part whole : List Item} (sublist : part.Sublist whole) :
    (part.mergeSort le).Sublist (whole.mergeSort le) := by
  induction sublist with
  | slnil => exact List.Sublist.refl _
  | cons item _ ih =>
      obtain ⟨before, behind, with', without, -⟩ := List.mergeSort_cons trans total item _
      rw [with']
      rw [without] at ih
      exact ih.middle item
  | cons_cons item _ ih =>
      rw [mergeSort_cons_eq trans total, mergeSort_cons_eq trans total]
      exact (ih.filter _).append ((ih.filter _).cons_cons item)

theorem filter_mergeSort (keep : Item → Bool) (items : List Item) :
    (items.mergeSort le).filter keep = (items.filter keep).mergeSort le := by
  induction items with
  | nil => simp
  | cons item rest ih =>
      by_cases kept : keep item
      · rw [mergeSort_cons_eq trans total, List.filter_cons_of_pos kept,
          mergeSort_cons_eq trans total, ← ih, List.filter_append, List.filter_cons_of_pos kept,
          List.filter_comm keep, List.filter_comm keep]
      · rcases List.mergeSort_cons trans total item rest with ⟨before, behind, whole, parts, -⟩
        rw [parts, List.filter_append] at ih
        rw [whole, List.filter_append, List.filter_cons_of_neg kept,
          List.filter_cons_of_neg kept, ih]

/-- One more item goes behind those in front of it, unless it has to go before them. -/
theorem exists_mergeSort_insert (item : Item) (left right : List Item) :
    ∃ front back, (left ++ right).mergeSort le = front ++ back ∧
      (left ++ item :: right).mergeSort le = front ++ item :: back ∧
      ∀ other ∈ left, le other item = true → other ∈ front := by
  induction left with
  | nil =>
      obtain ⟨before, behind, whole, parts, -⟩ := List.mergeSort_cons trans total item right
      exact ⟨before, behind, parts, whole, by simp⟩
  | cons first rest ih =>
      obtain ⟨front, back, parts, whole, ahead⟩ := ih
      rw [List.cons_append, List.cons_append, mergeSort_cons_eq trans total,
        mergeSort_cons_eq trans total, parts, whole]
      by_cases follows : le first item = true
      · refine ⟨front.filter (!le first ·) ++ back.filter (!le first ·) ++
          first :: front.filter (le first ·), back.filter (le first ·), ?_, ?_, ?_⟩
        · simp
        · simp [follows]
        · intro other member before
          rcases List.mem_cons.1 member with rfl | tail
          · simp
          · have found := ahead other tail before
            by_cases behind : le first other = true <;> simp [found, behind]
      · refine ⟨front.filter (!le first ·), back.filter (!le first ·) ++
          first :: (front ++ back).filter (le first ·), ?_, ?_, ?_⟩
        · simp
        · simp [follows]
        · intro other member before
          rcases List.mem_cons.1 member with rfl | tail
          · exact absurd before follows
          · have found := ahead other tail before
            have apart : ¬le first other = true := fun close =>
              follows (trans first other item close before)
            simp [found, apart]

end Stable

section Numbered

variable {Item Value : Type} (number : Item → Nat) (view : Item → Value)

theorem numbered_trans (first second third : Item)
    (left : decide (number first ≤ number second) = true)
    (right : decide (number second ≤ number third) = true) :
    decide (number first ≤ number third) = true := by
  rw [decide_eq_true_eq] at *
  exact Nat.le_trans left right

theorem numbered_total (first second : Item) :
    (decide (number first ≤ number second) || decide (number second ≤ number first)) = true := by
  simpa using Nat.le_total (number first) (number second)

theorem exists_number_eq {left right : List Item}
    (same : ∀ value, (left.filter (number · = value)).map view =
      (right.filter (number · = value)).map view) {item : Item} (member : item ∈ left) :
    ∃ other ∈ right, number other = number item := by
  have viewed : view item ∈ (left.filter (number · = number item)).map view :=
    List.mem_map_of_mem (List.mem_filter.2 ⟨member, by simp⟩)
  rw [same] at viewed
  obtain ⟨other, found, -⟩ := List.mem_map.1 viewed
  exact ⟨other, List.mem_of_mem_filter found, by simpa using List.of_mem_filter found⟩

theorem map_eq_of_filter_eq {left right : List Item}
    (ordered : left.Pairwise fun first second => number first ≤ number second)
    (ordered' : right.Pairwise fun first second => number first ≤ number second)
    (same : ∀ value, (left.filter (number · = value)).map view =
      (right.filter (number · = value)).map view) : left.map view = right.map view := by
  induction left generalizing right with
  | nil =>
      cases right with
      | nil => rfl
      | cons item rest => simpa using same (number item)
  | cons item rest ih =>
      obtain ⟨other, found, equal⟩ := exists_number_eq number view same List.mem_cons_self
      cases right with
      | nil => simp at found
      | cons item' rest' =>
          obtain ⟨other', found', equal'⟩ :=
            exists_number_eq number view (fun value => (same value).symm) List.mem_cons_self
          -- each of the two items has the least number of its list
          have close : number item = number item' := by
            have low : number item ≤ number other' := by
              rcases List.mem_cons.1 found' with rfl | later
              · exact Nat.le_refl _
              · exact List.rel_of_pairwise_cons ordered later
            have low' : number item' ≤ number other := by
              rcases List.mem_cons.1 found with rfl | later
              · exact Nat.le_refl _
              · exact List.rel_of_pairwise_cons ordered' later
            omega
          have here := same (number item)
          simp only [List.filter_cons, close, decide_true, if_true, List.map_cons,
            List.cons.injEq] at here
          have tails : ∀ value, (rest.filter (number · = value)).map view =
              (rest'.filter (number · = value)).map view := by
            intro value
            have both := same value
            by_cases own : number item' = value
            · simpa [List.filter_cons, own, close, here.1] using both
            · simpa [List.filter_cons, own, close] using both
          rw [List.map_cons, List.map_cons, here.1,
            ih (List.pairwise_cons.1 ordered).2 (List.pairwise_cons.1 ordered').2 tails]

/-- A stable sort by number keeps the items of each number as they come, so these decide it. -/
theorem map_mergeSort_eq_of_filter_eq {left right : List Item}
    (same : ∀ value, (left.filter (number · = value)).map view =
      (right.filter (number · = value)).map view) :
    (left.mergeSort fun first second => number first ≤ number second).map view =
      (right.mergeSort fun first second => number first ≤ number second).map view := by
  have ordered (items : List Item) :
      (items.mergeSort fun first second => number first ≤ number second).Pairwise
        fun first second => number first ≤ number second :=
    (List.pairwise_mergeSort (numbered_trans number) (numbered_total number) items).imp
      of_decide_eq_true
  have kept (items : List Item) (value : Nat) :
      (items.mergeSort fun first second => number first ≤ number second).filter
        (number · = value) = items.filter (number · = value) := by
    rw [filter_mergeSort (numbered_trans number) (numbered_total number)]
    apply List.mergeSort_of_pairwise
    apply List.pairwise_of_forall_mem_list
    intro first among second among'
    have equal : number first = value := by simpa using List.of_mem_filter among
    have equal' : number second = value := by simpa using List.of_mem_filter among'
    simp [equal, equal']
  apply map_eq_of_filter_eq number view (ordered left) (ordered right)
  intro value
  rw [kept, kept]
  exact same value

end Numbered

end NameLint
