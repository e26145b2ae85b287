import Mathlib.Data.List.Forall2
import NameLint.Fault

/-!
# Computations that succeed

A computation that has an answer got it from an answer of its first step, so later proofs take it
apart step by step and never meet the faults. A computation on every item of a list has an answer
when each of its steps has one.
-/

namespace NameLint

set_option autoImplicit false

section Steps

variable {Error Value Answer : Type}

theorem exists_of_bind_eq_ok {first : Except Error Value} {next : Value → Except Error Answer}
    {answer : Answer} (done : first >>= next = .ok answer) :
    ∃ value, first = .ok value ∧ next value = .ok answer := by
  cases first with
  | error fault => cases done
  | ok value => exact ⟨value, rfl, done⟩

theorem exists_bind_eq_ok {first : Except Error Value} {next : Value → Except Error Answer}
    (able : ∃ value, first = .ok value)
    (later : ∀ value, first = .ok value → ∃ answer, next value = .ok answer) :
    ∃ answer, first >>= next = .ok answer := by
  obtain ⟨value, done⟩ := able
  obtain ⟨answer, rest⟩ := later value done
  exact ⟨answer, by rw [done]; exact rest⟩

theorem eq_error_or_of_bind_eq_error {first : Except Error Value}
    {next : Value → Except Error Answer} {fault : Error}
    (abandoned : first >>= next = .error fault) :
    first = .error fault ∨ ∃ value, first = .ok value ∧ next value = .error fault := by
  cases first with
  | error own =>
      cases abandoned
      exact .inl rfl
  | ok value => exact .inr ⟨value, rfl, abandoned⟩

variable {step : Value → Except Error Answer}

theorem mapM_eq_ok_iff {items : List Value} {answers : List Answer} :
    items.mapM step = .ok answers ↔
      List.Forall₂ (fun item answer => step item = .ok answer) items answers := by
  induction items generalizing answers with
  | nil => cases answers <;> simp [pure, Except.pure]
  | cons item rest ih =>
      rw [List.mapM_cons]
      constructor
      · intro done
        obtain ⟨first, own, remainder⟩ := exists_of_bind_eq_ok done
        obtain ⟨others, later, same⟩ := exists_of_bind_eq_ok remainder
        cases same
        exact .cons own (ih.1 later)
      · intro all
        cases all with
        | cons own later =>
            rw [own]
            simp only [bind, Except.bind, ih.2 later, pure, Except.pure]

theorem exists_mapM_eq_ok_iff {items : List Value} :
    (∃ answers, items.mapM step = .ok answers) ↔
      ∀ item ∈ items, ∃ answer, step item = .ok answer := by
  simp only [mapM_eq_ok_iff]
  induction items with
  | nil => simp
  | cons item rest ih =>
      rw [List.forall_mem_cons, ← ih]
      constructor
      · rintro ⟨answers, all⟩
        cases all with
        | cons own later => exact ⟨⟨_, own⟩, _, later⟩
      · rintro ⟨⟨answer, own⟩, answers, later⟩
        exact ⟨answer :: answers, .cons own later⟩

theorem mem_iff_of_mapM_eq_ok {items : List Value} {answers : List Answer} {answer : Answer}
    (done : items.mapM step = .ok answers) :
    answer ∈ answers ↔ ∃ item ∈ items, step item = .ok answer := by
  have all := mapM_eq_ok_iff.1 done
  clear done
  induction all with
  | nil => simp
  | cons own later ih => simp [ih, own, eq_comm]

end Steps

section Folds

variable {Error State Item : Type} {step : State → Item → Except Error State} {items : List Item}

theorem foldlM_keeps (Holds : State → Prop)
    (kept : ∀ state, Holds state → ∀ item ∈ items, ∀ next, step state item = .ok next → Holds next)
    {first last : State} (start : Holds first) (run : items.foldlM step first = .ok last) :
    Holds last := by
  induction items generalizing first with
  | nil =>
      cases run
      exact start
  | cons item rest ih =>
      rw [List.foldlM_cons] at run
      obtain ⟨next, taken, remainder⟩ := exists_of_bind_eq_ok run
      exact ih (fun state held other member => kept state held other (List.mem_cons_of_mem _ member))
        (kept first start item List.mem_cons_self next taken) remainder

theorem exists_foldlM (able : ∀ state, ∀ item ∈ items, ∃ next, step state item = .ok next)
    (first : State) : ∃ last, items.foldlM step first = .ok last := by
  induction items generalizing first with
  | nil => exact ⟨first, rfl⟩
  | cons item rest ih =>
      obtain ⟨next, taken⟩ := able first item List.mem_cons_self
      obtain ⟨last, run⟩ := ih (fun state other member =>
        able state other (List.mem_cons_of_mem _ member)) next
      refine ⟨last, ?_⟩
      rw [List.foldlM_cons, taken]
      exact run

theorem exists_foldlM_iff {Able : Item → Prop}
    (able : ∀ state, ∀ item ∈ items, (∃ next, step state item = .ok next) ↔ Able item)
    (first : State) :
    (∃ last, items.foldlM step first = .ok last) ↔ ∀ item ∈ items, Able item := by
  constructor
  · rintro ⟨last, run⟩
    induction items generalizing first with
    | nil => simp
    | cons item rest ih =>
        rw [List.foldlM_cons] at run
        obtain ⟨next, taken, remainder⟩ := exists_of_bind_eq_ok run
        rw [List.forall_mem_cons]
        exact ⟨(able first item List.mem_cons_self).1 ⟨next, taken⟩,
          ih (fun state other member => able state other (List.mem_cons_of_mem _ member)) next
            remainder⟩
  · intro every
    exact exists_foldlM (fun state item member => (able state item member).2 (every item member))
      first

/-- A step either sets what is looked at, as its item tells, or leaves it alone. So the whole run has
set it as one of these items tells, or has left it alone. -/
theorem foldlM_tells {View : Type} (view : State → View) (Meant : Item → Prop)
    (Tells : Item → View → Prop)
    (taken : ∀ state, ∀ item ∈ items, ∀ next, step state item = .ok next →
      Meant item ∧ Tells item (view next) ∨ ¬Meant item ∧ view next = view state)
    {first last : State} (run : items.foldlM step first = .ok last) :
    (∃ item ∈ items, Meant item ∧ Tells item (view last)) ∨
      (∀ item ∈ items, ¬Meant item) ∧ view last = view first := by
  induction items generalizing first with
  | nil =>
      cases run
      exact .inr ⟨by simp, rfl⟩
  | cons item rest ih =>
      rw [List.foldlM_cons] at run
      obtain ⟨next, done, remainder⟩ := exists_of_bind_eq_ok run
      rcases ih (fun state other member => taken state other (List.mem_cons_of_mem _ member))
        remainder with ⟨other, member, meant, tells⟩ | ⟨none, kept⟩
      · exact .inl ⟨other, List.mem_cons_of_mem _ member, meant, tells⟩
      · rcases taken first item List.mem_cons_self next done with ⟨meant, tells⟩ | ⟨unmeant, left⟩
        · exact .inl ⟨item, List.mem_cons_self, meant, kept ▸ tells⟩
        · exact .inr ⟨List.forall_mem_cons.2 ⟨unmeant, none⟩, kept.trans left⟩

end Folds

end NameLint
