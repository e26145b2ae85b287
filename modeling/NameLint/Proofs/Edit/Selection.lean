import Mathlib.Data.List.Chain
import NameLint.Edit.Splice

/-!
# Which edits are selected

Which edits the fixes of a list make follows from the edits alone, without any text: a fix brings
those of its edits that are not made yet, all of them or, where the first of them starts before the
end of the last edit made, none. An edit that is skipped once stays out, because from then on edits
start behind it.
-/

namespace NameLint

open NameLint.Text

set_option autoImplicit false

/-- The edits of a fix do not repeat, and each one ends where the next one starts or before. -/
structure Fix.IsOrderly (fix : Fix) : Prop where
  distinct : fix.edits.Nodup
  apart : fix.edits.IsChain fun first second => first.span.stop ≤ second.span.start

theorem pairwise_of_isChain {edits : List Edit}
    (apart : edits.IsChain fun first second => first.span.stop ≤ second.span.start) :
    edits.Pairwise fun first second => first.span.stop ≤ second.span.start := by
  let before (first second : Edit) : Prop := first.span.stop ≤ second.span.start
  have transitive : Trans before before before := by
    constructor
    intro first second third left right
    have size := second.span.start_le_stop
    simp only [before] at *
    omega
  exact (List.isChain_iff_pairwise (R := before)).1 apart

theorem Fix.IsOrderly.pairwise {fix : Fix} (orderly : fix.IsOrderly) :
    fix.edits.Pairwise fun first second => first.span.stop ≤ second.span.start :=
  pairwise_of_isChain orderly.apart

def reachedBy (made : List Edit) : Nat :=
  (made.getLast?.map (·.span.stop)).getD 0

def Fix.pending (made : List Edit) (fix : Fix) : List Edit :=
  fix.edits.filter (· ∉ made)

/-- Whether the fix has edits to make and the first one lies behind those made. -/
def Fix.fits (made : List Edit) (fix : Fix) : Bool :=
  (fix.pending made).head?.any (reachedBy made ≤ ·.span.start)

def grown (made : List Edit) (fix : Fix) : List Edit :=
  if fix.fits made then made ++ fix.pending made else made

def selected (made : List Edit) (fixes : List Fix) : List Edit :=
  fixes.foldl grown made

/-- The fixes that bring the selected edits. -/
def taken (made : List Edit) : List Fix → List Fix
  | [] => []
  | fix :: rest =>
      if fix.fits made then fix :: taken (grown made fix) rest else taken (grown made fix) rest

/-- Every edit of the fix is among those made, and one of them is of no fix that was tried before and
is made whole as well. -/
def Fix.BringsNew (made : List Edit) (before : List Fix) (fix : Fix) : Prop :=
  (∀ edit ∈ fix.edits, edit ∈ made) ∧ ∃ edit ∈ fix.edits, ∀ earlier ∈ before,
    (∀ own ∈ earlier.edits, own ∈ made) → edit ∉ earlier.edits

instance (made : List Edit) (before : List Fix) (fix : Fix) :
    Decidable (fix.BringsNew made before) := by
  unfold Fix.BringsNew
  infer_instance

/-- The fixes that bring a new edit when it is their turn, told from all edits made. -/
def bringers (made : List Edit) (before : List Fix) : List Fix → List Fix
  | [] => []
  | fix :: rest =>
      if fix.BringsNew made before then fix :: bringers made (before ++ [fix]) rest
      else bringers made (before ++ [fix]) rest

def TakenApart (made : List Edit) : List Fix → Prop
  | [] => True
  | fix :: rest =>
      (fix.fits made →
        (fix.pending made).IsChain fun first second => first.span.stop ≤ second.span.start) ∧
      TakenApart (grown made fix) rest

@[simp] theorem reachedBy_concat (made : List Edit) (edit : Edit) :
    reachedBy (made ++ [edit]) = edit.span.stop := by
  simp [reachedBy]

theorem exists_of_lt_reachedBy {made : List Edit} {offset : Nat} (early : offset < reachedBy made) :
    ∃ last ∈ made, offset < last.span.stop := by
  rcases List.eq_nil_or_concat' made with rfl | ⟨before, last, rfl⟩
  · exact absurd early (Nat.not_lt_zero _)
  · rw [reachedBy_concat] at early
    exact ⟨last, by simp, early⟩

theorem mem_pending {made : List Edit} {fix : Fix} {edit : Edit} :
    edit ∈ fix.pending made ↔ edit ∈ fix.edits ∧ edit ∉ made := by
  simp [Fix.pending]

section Step

variable {made : List Edit} {fix : Fix}

theorem exists_of_fits (fits : fix.fits made) :
    ∃ first rest, fix.pending made = first :: rest ∧ reachedBy made ≤ first.span.start := by
  obtain ⟨first, found, behind⟩ := Option.any_eq_true _ _ |>.1 fits
  obtain ⟨rest, shape⟩ := List.head?_eq_some_iff.1 found
  exact ⟨first, rest, shape, by simpa using behind⟩

theorem not_fits_iff : fix.fits made = false ↔ fix.pending made = [] ∨
    ∃ first rest, fix.pending made = first :: rest ∧ first.span.start < reachedBy made := by
  cases shape : fix.pending made with
  | nil => simp [Fix.fits, shape]
  | cons first rest => simp [Fix.fits, shape]

theorem grown_of_fits (fits : fix.fits made) : grown made fix = made ++ fix.pending made :=
  if_pos fits

theorem grown_of_not_fits (skipped : fix.fits made = false) : grown made fix = made := by
  rw [grown, skipped]
  rfl

theorem mem_grown_of_fits (fits : fix.fits made) {edit : Edit} (own : edit ∈ fix.edits) :
    edit ∈ grown made fix := by
  rw [grown, if_pos fits]
  by_cases known : edit ∈ made
  · exact List.mem_append_left _ known
  · exact List.mem_append_right _ (mem_pending.2 ⟨own, known⟩)

theorem reachedBy_le_of_apart
    (apart : (fix.pending made).Pairwise fun first second => first.span.stop ≤ second.span.start)
    (fits : fix.fits made) {edit : Edit} (member : edit ∈ fix.pending made) :
    reachedBy made ≤ edit.span.start := by
  obtain ⟨first, rest, shape, behind⟩ := exists_of_fits fits
  rw [shape] at member apart
  rcases List.mem_cons.1 member with rfl | later
  · exact behind
  · have gap := List.rel_of_pairwise_cons apart later
    have size := first.span.start_le_stop
    omega

variable (orderly : fix.IsOrderly)

include orderly

theorem pending_pairwise (made : List Edit) :
    (fix.pending made).Pairwise fun first second => first.span.stop ≤ second.span.start :=
  orderly.pairwise.sublist List.filter_sublist

theorem reachedBy_le_of_fits (fits : fix.fits made) {edit : Edit}
    (member : edit ∈ fix.pending made) : reachedBy made ≤ edit.span.start :=
  reachedBy_le_of_apart (pending_pairwise orderly made) fits member

theorem reachedBy_le_grown (made : List Edit) : reachedBy made ≤ reachedBy (grown made fix) := by
  unfold grown
  split
  · next fits =>
      rcases List.eq_nil_or_concat' (fix.pending made) with none | ⟨before, last, shape⟩
      · rw [none, List.append_nil]
      · have behind : reachedBy made ≤ last.span.start :=
          reachedBy_le_of_fits orderly fits (by simp [shape])
        have size := last.span.start_le_stop
        rw [shape, ← List.append_assoc, reachedBy_concat]
        omega
  · exact Nat.le_refl _

theorem mem_or_behind_of_mem_grown {edit : Edit} (member : edit ∈ grown made fix) :
    edit ∈ made ∨ reachedBy made ≤ edit.span.start := by
  unfold grown at member
  split at member
  · next fits =>
      rcases List.mem_append.1 member with known | new
      · exact .inl known
      · exact .inr (reachedBy_le_of_fits orderly fits new)
  · exact .inl member

theorem nodup_grown (distinct : made.Nodup) : (grown made fix).Nodup := by
  unfold grown
  split
  · refine List.nodup_append.2 ⟨distinct, orderly.distinct.filter _, ?_⟩
    rintro edit known _ new rfl
    exact (mem_pending.1 new).2 known
  · exact distinct

end Step

/-- Each fix in turn brings its edits that are not made yet, one at least. -/
inductive Brought : List Edit → List Fix → List Edit → Prop
  | done (made : List Edit) : Brought made [] made
  | fix {made all : List Edit} {fix : Fix} {rest : List Fix} (present : fix.pending made ≠ [])
      (later : Brought (made ++ fix.pending made) rest all) : Brought made (fix :: rest) all

theorem Brought.subset {made all : List Edit} {fixes : List Fix}
    (brought : Brought made fixes all) : made ⊆ all := by
  induction brought with
  | done made => exact List.Subset.refl _
  | fix present later ih => exact fun edit member => ih (List.mem_append_left _ member)

theorem Brought.mem_of_mem_edits {made all : List Edit} {fixes : List Fix}
    (brought : Brought made fixes all) :
    ∀ fix ∈ fixes, ∀ edit ∈ fix.edits, edit ∈ all := by
  induction brought with
  | done made => simp
  | @fix made all first rest present later ih =>
      intro fix member edit own
      rcases List.mem_cons.1 member with rfl | tail
      · apply later.subset
        by_cases known : edit ∈ made
        · exact List.mem_append_left _ known
        · exact List.mem_append_right _ (mem_pending.2 ⟨own, known⟩)
      · exact ih fix tail edit own

theorem Brought.exists_of_mem {made all : List Edit} {fixes : List Fix}
    (brought : Brought made fixes all) {edit : Edit} (member : edit ∈ all) :
    edit ∈ made ∨ ∃ fix ∈ fixes, edit ∈ fix.edits := by
  induction brought with
  | done made => exact .inl member
  | @fix made all first rest present later ih =>
      rcases ih member with old | ⟨fix, among, own⟩
      · rcases List.mem_append.1 old with older | new
        · exact .inl older
        · exact .inr ⟨first, List.mem_cons_self, (mem_pending.1 new).1⟩
      · exact .inr ⟨fix, List.mem_cons_of_mem _ among, own⟩

section Run

theorem taken_sublist (made : List Edit) (fixes : List Fix) :
    (taken made fixes).Sublist fixes := by
  induction fixes generalizing made with
  | nil => exact List.Sublist.refl _
  | cons fix rest ih =>
      rw [taken]
      split
      · exact (ih _).cons_cons fix
      · exact (ih _).cons fix

theorem brought_taken (made : List Edit) (fixes : List Fix) :
    Brought made (taken made fixes) (selected made fixes) := by
  induction fixes generalizing made with
  | nil => exact .done made
  | cons fix rest ih =>
      have later := ih (grown made fix)
      rw [taken, selected, List.foldl_cons]
      cases fits : fix.fits made with
      | true =>
          obtain ⟨first, others, shape, -⟩ := exists_of_fits fits
          rw [grown_of_fits fits] at later ⊢
          exact .fix (by simp [shape]) later
      | false =>
          rw [grown_of_not_fits fits] at later ⊢
          exact later

theorem exists_fix_of_mem_selected {fixes : List Fix} {edit : Edit}
    (member : edit ∈ selected [] fixes) : ∃ fix ∈ fixes, edit ∈ fix.edits := by
  rcases (brought_taken [] fixes).exists_of_mem member with none | ⟨fix, among, own⟩
  · simp at none
  · exact ⟨fix, (taken_sublist [] fixes).subset among, own⟩

theorem selected_append (made : List Edit) (front back : List Fix) :
    selected made (front ++ back) = selected (selected made front) back :=
  List.foldl_append

theorem takenApart_of_isChain (made : List Edit) {fixes : List Fix}
    (apart : ∀ fix ∈ fixes,
      fix.edits.IsChain fun first second => first.span.stop ≤ second.span.start) :
    TakenApart made fixes := by
  induction fixes generalizing made with
  | nil => trivial
  | cons fix rest ih =>
      refine ⟨fun _ => ?_, ih _ fun other member => apart other (List.mem_cons_of_mem _ member)⟩
      have whole := pairwise_of_isChain (apart fix List.mem_cons_self)
      exact (whole.sublist List.filter_sublist).isChain

theorem selected_ofEdit (level : Applicability) {made edits : List Edit}
    (distinct : (made ++ edits).Nodup)
    (ordered : edits.Pairwise fun first second => first.span.stop ≤ second.span.start)
    (behind : ∀ edit ∈ edits, reachedBy made ≤ edit.span.start) :
    selected made (edits.map (Fix.ofEdit level)) = made ++ edits ∧
      taken made (edits.map (Fix.ofEdit level)) = edits.map (Fix.ofEdit level) := by
  induction edits generalizing made with
  | nil => simp [selected, taken]
  | cons edit rest ih =>
      obtain ⟨heads, tails⟩ := List.pairwise_cons.1 ordered
      have new : edit ∉ made := fun known =>
        (List.nodup_append.1 distinct).2.2 edit known edit List.mem_cons_self rfl
      have pending : (Fix.ofEdit level edit).pending made = [edit] := by
        simp [Fix.pending, Fix.ofEdit, new]
      have fits : (Fix.ofEdit level edit).fits made = true := by
        simpa [Fix.fits, pending] using behind edit List.mem_cons_self
      have next : grown made (Fix.ofEdit level edit) = made ++ [edit] := by
        rw [grown_of_fits fits, pending]
      have distinct' : (made ++ [edit] ++ rest).Nodup := by simpa using distinct
      obtain ⟨all, both⟩ := ih distinct' tails fun other member => by
        rw [reachedBy_concat]
        exact heads other member
      rw [List.map_cons, selected, List.foldl_cons, taken, if_pos fits, next, both]
      exact ⟨by simpa [selected] using all, rfl⟩

variable {made : List Edit} {fixes : List Fix} (orderly : ∀ fix ∈ fixes, fix.IsOrderly)

include orderly

theorem nodup_selected (distinct : made.Nodup) : (selected made fixes).Nodup := by
  induction fixes generalizing made with
  | nil => exact distinct
  | cons fix rest ih =>
      exact ih (fun other member => orderly other (List.mem_cons_of_mem _ member))
        (nodup_grown (orderly fix List.mem_cons_self) distinct)

theorem mem_or_behind_of_mem_selected {edit : Edit} (member : edit ∈ selected made fixes) :
    edit ∈ made ∨ reachedBy made ≤ edit.span.start := by
  induction fixes generalizing made with
  | nil => exact .inl member
  | cons fix rest ih =>
      have first := orderly fix List.mem_cons_self
      rcases ih (fun other among => orderly other (List.mem_cons_of_mem _ among)) member with
        grownIn | behind
      · exact mem_or_behind_of_mem_grown first grownIn
      · exact .inr (Nat.le_trans (reachedBy_le_grown first made) behind)

theorem reachedBy_le_selected (made : List Edit) :
    reachedBy made ≤ reachedBy (selected made fixes) := by
  induction fixes generalizing made with
  | nil => exact Nat.le_refl _
  | cons fix rest ih =>
      have own := reachedBy_le_grown (orderly fix List.mem_cons_self) made
      have later := ih (fun other among => orderly other (List.mem_cons_of_mem _ among))
        (grown made fix)
      exact Nat.le_trans own later

/-- A fix is made whole, or one of its edits is left out because it starts too early. -/
theorem selected_settles {fix : Fix} (member : fix ∈ fixes) :
    (∀ edit ∈ fix.edits, edit ∈ selected made fixes) ∨
      ∃ edit ∈ fix.edits, edit ∉ selected made fixes ∧
        edit.span.start < reachedBy (selected made fixes) := by
  induction fixes generalizing made with
  | nil => simp at member
  | cons first rest ih =>
      have laterOrderly : ∀ other ∈ rest, other.IsOrderly := fun other among =>
        orderly other (List.mem_cons_of_mem _ among)
      rw [selected, List.foldl_cons]
      rcases List.mem_cons.1 member with rfl | tail
      · have kept := (brought_taken (grown made fix) rest).subset
        cases fits : fix.fits made with
        | true => exact .inl fun edit own => kept (mem_grown_of_fits fits own)
        | false =>
            rw [grown_of_not_fits fits] at kept ⊢
            rcases not_fits_iff.1 fits with none | ⟨edit, others, shape, early⟩
            · left
              intro edit own
              by_contra unknown
              have pending := mem_pending.2 ⟨own, fun known => unknown (kept known)⟩
              rw [none] at pending
              simp at pending
            -- the edit can only be made where it starts, and that point is passed
            · obtain ⟨own, unknown⟩ := mem_pending.1 (shape ▸ List.mem_cons_self)
              refine .inr ⟨edit, own, fun chosen => ?_, ?_⟩
              · rcases mem_or_behind_of_mem_selected laterOrderly chosen with known | behind
                · exact unknown known
                · omega
              · exact Nat.lt_of_lt_of_le early (reachedBy_le_selected laterOrderly made)
      · exact ih laterOrderly tail

end Run

section Turns

variable {before rest : List Fix} {fix : Fix}
  (orderly : ∀ other ∈ before ++ fix :: rest, other.IsOrderly)

include orderly

theorem mem_selected_of_whole {earlier : Fix} (tried : earlier ∈ before)
    (whole : ∀ own ∈ earlier.edits, own ∈ selected [] (before ++ fix :: rest)) :
    ∀ own ∈ earlier.edits, own ∈ selected [] before := by
  have front : ∀ other ∈ before, other.IsOrderly :=
    fun other member => orderly other (List.mem_append_left _ member)
  have back : ∀ other ∈ fix :: rest, other.IsOrderly :=
    fun other member => orderly other (List.mem_append_right _ member)
  rcases @selected_settles [] before front earlier tried with done | ⟨left, own, out, early⟩
  · exact done
  · have chosen := whole left own
    rw [selected_append] at chosen
    rcases mem_or_behind_of_mem_selected back chosen with known | behind
    · exact absurd known out
    · omega

/-- A fix fits when it is its turn exactly if it brings a new edit. -/
theorem fits_iff_bringsNew : fix.fits (selected [] before) = true ↔
    fix.BringsNew (selected [] (before ++ fix :: rest)) before := by
  have back : ∀ other ∈ fix :: rest, other.IsOrderly :=
    fun other member => orderly other (List.mem_append_right _ member)
  have kept := (brought_taken (grown (selected [] before) fix) rest).subset
  have final : selected [] (before ++ fix :: rest) =
      selected (grown (selected [] before) fix) rest := by
    rw [selected_append, selected, List.foldl_cons]
    rfl
  constructor
  · intro fits
    obtain ⟨first, others, shape, -⟩ := exists_of_fits fits
    obtain ⟨own, unknown⟩ := mem_pending.1 (shape ▸ List.mem_cons_self)
    refine ⟨fun edit member => ?_, first, own, fun earlier tried whole known => ?_⟩
    · rw [final]
      exact kept (mem_grown_of_fits fits member)
    · exact unknown (mem_selected_of_whole orderly tried whole first known)
  · intro ⟨whole, edit, own, new⟩
    by_contra skipped
    rw [Bool.not_eq_true] at skipped
    rcases not_fits_iff.1 skipped with none | ⟨first, others, shape, early⟩
    · have known : edit ∈ selected [] before := by
        by_contra unknown
        have pending := mem_pending.2 ⟨own, unknown⟩
        rw [none] at pending
        simp at pending
      have brought := brought_taken [] before
      rcases brought.exists_of_mem known with absurd | ⟨earlier, counted, has⟩
      · simp at absurd
      · refine new earlier ((taken_sublist [] before).subset counted) (fun other member => ?_) has
        rw [final]
        apply kept
        rw [grown_of_not_fits skipped]
        exact brought.mem_of_mem_edits earlier counted other member
    · obtain ⟨member, unknown⟩ := mem_pending.1 (shape ▸ List.mem_cons_self)
      have chosen := whole first member
      rw [selected_append] at chosen
      rcases mem_or_behind_of_mem_selected back chosen with known | behind
      · exact unknown known
      · omega

end Turns

theorem taken_eq_bringers_of_tried (before : List Fix) {fixes : List Fix}
    (orderly : ∀ fix ∈ before ++ fixes, fix.IsOrderly) :
    taken (selected [] before) fixes = bringers (selected [] (before ++ fixes)) before fixes := by
  induction fixes generalizing before with
  | nil => rfl
  | cons fix rest ih =>
      have turn := fits_iff_bringsNew orderly
      have later := ih (before ++ [fix]) (by simpa using orderly)
      rw [selected_append, List.append_assoc] at later
      rw [taken, bringers]
      by_cases fits : fix.fits (selected [] before) = true
      · rw [if_pos fits, if_pos (turn.1 fits)]
        exact congrArg _ later
      · rw [if_neg fits, if_neg fun brings => fits (turn.2 brings)]
        exact later

theorem taken_eq_bringers {fixes : List Fix} (orderly : ∀ fix ∈ fixes, fix.IsOrderly) :
    taken [] fixes = bringers (selected [] fixes) [] fixes :=
  taken_eq_bringers_of_tried [] orderly

end NameLint
