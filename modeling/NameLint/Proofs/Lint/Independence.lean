import NameLint.Proofs.Lint.Report
import NameLint.Proofs.Sort

/-!
# Rules that run side by side

A rule that reads and sets marks under its own name only cannot tell whether other rules are run
beside it. So the reports that it makes in a joint run are those that it makes alone, in the same
order: the sort is stable, and it does not matter whether the reports of the others are left out
before it or after it.
-/

namespace NameLint

open NameLint.Text NameLint.Naming

set_option autoImplicit false

def Reported.AgreeOn (name : String) (left right : Reported) : Prop :=
  ∀ address, ⟨name, address⟩ ∈ left.marks ↔ ⟨name, address⟩ ∈ right.marks

namespace Reported

variable {name : String} {left right : Reported}

theorem AgreeOn.refl (name : String) (reported : Reported) : reported.AgreeOn name reported :=
  fun _ => Iff.rfl

theorem AgreeOn.symm (agree : left.AgreeOn name right) : right.AgreeOn name left :=
  fun address => (agree address).symm

theorem AgreeOn.trans {last : Reported} (agree : left.AgreeOn name right)
    (later : right.AgreeOn name last) : left.AgreeOn name last :=
  fun address => (agree address).trans (later address)

theorem AgreeOn.has_eq (agree : left.AgreeOn name right) (place : Place) :
    left.has name place = right.has name place := by
  rw [Reported.has, Reported.has, Bool.eq_iff_iff, List.contains_iff_mem, List.contains_iff_mem]
  exact agree place.address

/-- Whether a place is marked anew depends on the marks under the name, which then agree again. -/
theorem AgreeOn.mark (agree : left.AgreeOn name right) (place : Place) :
    (left.mark name place).1 = (right.mark name place).1 ∧
      (left.mark name place).2.AgreeOn name (right.mark name place).2 := by
  rw [Reported.mark, Reported.mark, agree.has_eq place]
  split
  · exact ⟨rfl, agree⟩
  · refine ⟨rfl, fun address => ?_⟩
    rw [List.mem_cons, List.mem_cons, agree address]

theorem agreeOn_mark_of_ne {other : String} (apart : other ≠ name) (reported : Reported)
    (place : Place) : reported.AgreeOn other (reported.mark name place).2 := by
  rw [Reported.mark]
  split
  · exact .refl other reported
  · intro address
    simp [apart]

end Reported

/-- All that the rule remembers are marks under its own name, and it sets no others. -/
structure Rule.KeepsToItself (rule : Rule) : Prop where
  own : ∀ {source place left right found after}, left.AgreeOn rule.name right →
    rule.check source place left = .ok (found, after) →
    ∃ after', rule.check source place right = .ok (found, after') ∧
      after.AgreeOn rule.name after'
  others : ∀ {source place before found after name},
    rule.check source place before = .ok (found, after) → name ≠ rule.name →
    before.AgreeOn name after

/-- The rule that reports what `judge` finds at a place, once. -/
def Rule.once (name : String) (kinds : List String)
    (judge : String → Place → Except Fault (Option Diagnostic)) : Rule where
  name := name
  kinds := kinds
  check source place reported := do
    match ← judge source place with
    | none => return ([], reported)
    | some diagnostic =>
        match reported.mark name place with
        | (true, reported) => return ([diagnostic], reported)
        | (false, reported) => return ([], reported)

theorem Rule.once_check (name : String) (kinds : List String)
    (judge : String → Place → Except Fault (Option Diagnostic)) (source : String) (place : Place)
    (reported : Reported) : (Rule.once name kinds judge).check source place reported = do
      match ← judge source place with
      | none => return ([], reported)
      | some diagnostic =>
          return (if (reported.mark name place).1 then [diagnostic] else [],
            (reported.mark name place).2) := by
  simp only [Rule.once]
  congr 1
  funext answer
  cases answer with
  | none => rfl
  | some diagnostic =>
      rcases reported.mark name place with ⟨_ | _, after⟩ <;> rfl

theorem Rule.keepsToItself_once (name : String) (kinds : List String)
    (judge : String → Place → Except Fault (Option Diagnostic)) :
    (Rule.once name kinds judge).KeepsToItself where
  own := by
    intro source place left right found after agree checked
    rw [once_check] at checked ⊢
    rcases exists_of_bind_eq_ok checked with ⟨answer, judged, remainder⟩
    rw [judged]
    cases answer with
    | none =>
        cases remainder
        exact ⟨right, rfl, agree⟩
    | some diagnostic =>
        cases remainder
        have agreeOwn : left.AgreeOn name right := agree
        rw [(agreeOwn.mark place).1]
        exact ⟨_, rfl, (agreeOwn.mark place).2⟩
  others := by
    intro source place before found after other checked apart
    rw [once_check] at checked
    rcases exists_of_bind_eq_ok checked with ⟨answer, judged, remainder⟩
    cases answer with
    | none =>
        cases remainder
        exact .refl other before
    | some diagnostic =>
        cases remainder
        exact Reported.agreeOn_mark_of_ne apart before place

theorem Naming.camelCaseRule_eq_once (mode : PropertiesMode) :
    camelCaseRule mode = Rule.once ruleName nameKinds fun source place =>
      if nameKinds.contains place.kind then classify mode source place else .ok none := by
  rw [camelCaseRule, Rule.once, Rule.mk.injEq]
  refine ⟨rfl, rfl, ?_⟩
  funext source place reported
  rw [checkName]
  split <;> rfl

theorem Naming.keepsToItself_camelCaseRule (mode : PropertiesMode) :
    (camelCaseRule mode).KeepsToItself := by
  rw [camelCaseRule_eq_once]
  exact Rule.keepsToItself_once _ _ _

structure Emission where
  place : Place
  rule : Rule
  diagnostic : Diagnostic

namespace Linter

/-- What the rules report as they meet the places in the order given. -/
def emit (source : String) : List (Place × Rule) → Reported → Except Fault (List Emission)
  | [], _ => .ok []
  | (place, rule) :: rest, reported => do
      let (found, reported) ← rule.check source place reported
      return found.map (⟨place, rule, ·⟩) ++ (← emit source rest reported)

def emissions (linter : Linter) (source : String) (tree : Tree) : Except Fault (List Emission) :=
  emit source (linter.encounters (Place.root tree).walk) {}

theorem foldlM_encounter_eq (source : String) (met : List (Place × Rule)) (findings : Findings) :
    (met.foldlM (encounter source) findings).map (·.diagnostics.toList) =
      (emit source met findings.reported).map fun emitted =>
        findings.diagnostics.toList ++ emitted.map (·.diagnostic) := by
  induction met generalizing findings with
  | nil => simp [emit, pure, Except.pure, Except.map]
  | cons pair rest ih =>
      rw [List.foldlM_cons, encounter, emit]
      simp only [bind, Except.bind]
      cases pair.2.check source pair.1 findings.reported with
      | error fault => rfl
      | ok answer =>
          simp only [pure, Except.pure, ih]
          cases emit source rest answer.2 with
          | error fault => rfl
          | ok emitted => simp [Except.map, Function.comp_def]

section Order

variable {linter : Linter} {source : String} {places : List Place}

/-- The first encounter comes before the second one: its place is an earlier one, or its rule is
earlier in the list and the place is the same. -/
def Earlier (rules : List Rule) (places : List Place) (first second : Place × Rule) : Prop :=
  [first.1, second.1].Sublist places ∨ first.1 = second.1 ∧ [first.2, second.2].Sublist rules

theorem rule_of_mem_encounters :
    ∀ pair ∈ linter.encounters places, pair.2 ∈ linter.rules := by
  intro pair met
  rcases List.mem_flatMap.1 met with ⟨place, -, member⟩
  rcases List.mem_map.1 member with ⟨rule, listed, rfl⟩
  exact (List.mem_filter.1 listed).1

theorem encounters_ordered : (linter.encounters places).Pairwise (Earlier linter.rules places) := by
  rw [encounters, List.pairwise_flatMap]
  constructor
  · intro place _
    rw [List.pairwise_map, List.pairwise_iff_forall_sublist]
    intro first second ordered
    exact .inr ⟨rfl, ordered.trans List.filter_sublist⟩
  · rw [List.pairwise_iff_forall_sublist]
    intro first second ordered met member other otherIn
    rcases List.mem_map.1 member with ⟨_, -, rfl⟩
    rcases List.mem_map.1 otherIn with ⟨_, -, rfl⟩
    exact .inl ordered

theorem mem_of_mem_emit {met : List (Place × Rule)} {reported : Reported}
    {emitted : List Emission} (run : emit source met reported = .ok emitted) :
    ∀ emission ∈ emitted, (emission.place, emission.rule) ∈ met := by
  induction met generalizing reported emitted with
  | nil =>
      cases run
      simp
  | cons pair rest ih =>
      rcases exists_of_bind_eq_ok run with ⟨⟨found, after⟩, -, remainder⟩
      rcases exists_of_bind_eq_ok remainder with ⟨others, later, same⟩
      cases same
      intro emission member
      rcases List.mem_append.1 member with own | behind
      · rcases List.mem_map.1 own with ⟨_, -, rfl⟩
        exact List.mem_cons_self
      · exact List.mem_cons_of_mem _ (ih later emission behind)

theorem emit_ordered {Before : Place × Rule → Place × Rule → Prop} {met : List (Place × Rule)}
    {reported : Reported} {emitted : List Emission} (ordered : met.Pairwise Before)
    (run : emit source met reported = .ok emitted) :
    emitted.Pairwise fun first second =>
      first.place = second.place ∧ first.rule = second.rule ∨
        Before (first.place, first.rule) (second.place, second.rule) := by
  induction met generalizing reported emitted with
  | nil =>
      cases run
      exact List.Pairwise.nil
  | cons pair rest ih =>
      rcases exists_of_bind_eq_ok run with ⟨⟨found, after⟩, -, remainder⟩
      rcases exists_of_bind_eq_ok remainder with ⟨others, later, same⟩
      cases same
      rcases List.pairwise_cons.1 ordered with ⟨heads, tails⟩
      rw [List.pairwise_append]
      refine ⟨?_, ih tails later, ?_⟩
      · rw [List.pairwise_map]
        exact List.pairwise_of_forall fun _ _ => .inl ⟨rfl, rfl⟩
      · intro first own second behind
        rcases List.mem_map.1 own with ⟨_, -, rfl⟩
        exact .inr (heads _ (mem_of_mem_emit later second behind))

end Order

section Alone

variable {source : String} {met : List (Place × Rule)}
  (kept : ∀ pair ∈ met, pair.2.KeepsToItself)

include kept

/-- What a joint run emits under a name is what a run of the encounters under this name emits,
whatever else is marked at its start. -/
theorem emit_filter {name : String} {left right : Reported} {emitted : List Emission}
    (agree : left.AgreeOn name right) (run : emit source met left = .ok emitted) :
    emit source (met.filter (·.2.name = name)) right =
      .ok (emitted.filter (·.rule.name = name)) := by
  induction met generalizing left right emitted with
  | nil =>
      cases run
      rfl
  | cons pair rest ih =>
      rcases pair with ⟨place, rule⟩
      rcases exists_of_bind_eq_ok run with ⟨⟨found, after⟩, checked, remainder⟩
      rcases exists_of_bind_eq_ok remainder with ⟨others, later, same⟩
      cases same
      have keeps := kept (place, rule) List.mem_cons_self
      have keptLater := fun other member => kept other (List.mem_cons_of_mem _ member)
      by_cases named : rule.name = name
      · subst named
        rcases keeps.own agree checked with ⟨after', checked', agree'⟩
        have rests := ih keptLater agree' later
        have own : (found.map (Emission.mk place rule)).filter (·.rule.name = rule.name) =
            found.map (Emission.mk place rule) := by
          rw [List.filter_eq_self]
          simp
        rw [List.filter_cons_of_pos (by simp), emit, checked', List.filter_append, own]
        simp only [bind, Except.bind, rests, pure, Except.pure]
      · have rests := ih keptLater ((keeps.others checked (Ne.symm named)).symm.trans agree) later
        have foreign : (found.map (Emission.mk place rule)).filter (·.rule.name = name) = [] := by
          rw [List.filter_eq_nil_iff]
          simp [named]
        rw [List.filter_cons_of_neg (by simpa using named), rests, List.filter_append, foreign,
          List.nil_append]

theorem exists_emit {rules : List Rule} {left : Reported}
    (among : ∀ pair ∈ met, pair.2 ∈ rules)
    (alone : ∀ rule ∈ rules, ∃ right emitted, left.AgreeOn rule.name right ∧
      emit source (met.filter (·.2.name = rule.name)) right = .ok emitted) :
    ∃ emitted, emit source met left = .ok emitted := by
  induction met generalizing left with
  | nil => exact ⟨[], rfl⟩
  | cons pair rest ih =>
      rcases pair with ⟨place, rule⟩
      have keeps := kept (place, rule) List.mem_cons_self
      rcases alone rule (among (place, rule) List.mem_cons_self) with ⟨right, own, agree, run⟩
      rw [List.filter_cons_of_pos (by simp)] at run
      rcases exists_of_bind_eq_ok run with ⟨⟨found, after'⟩, checked', remainder⟩
      rcases exists_of_bind_eq_ok remainder with ⟨others, later, -⟩
      rcases keeps.own agree.symm checked' with ⟨after, checked, agree'⟩
      -- the step changes nothing for the rules of other names
      have still : ∀ other ∈ rules, ∃ right emitted, after.AgreeOn other.name right ∧
          emit source (rest.filter (·.2.name = other.name)) right = .ok emitted := by
        intro other listed
        by_cases named : rule.name = other.name
        · rw [← named]
          exact ⟨after', others, agree'.symm, later⟩
        · rcases alone other listed with ⟨right, emitted, agree, run⟩
          rw [List.filter_cons_of_neg (by simpa using named)] at run
          exact ⟨right, emitted,
            (keeps.others checked (Ne.symm named)).symm.trans agree, run⟩
      rcases ih (fun other member => kept other (List.mem_cons_of_mem _ member))
        (fun other member => among other (List.mem_cons_of_mem _ member)) still with
        ⟨rests, run⟩
      refine ⟨found.map (Emission.mk place rule) ++ rests, ?_⟩
      rw [emit, checked]
      simp only [bind, Except.bind, run, pure, Except.pure]

end Alone

section Names

variable {linter : Linter}
  (distinct : linter.rules.Pairwise fun rule other => rule.name ≠ other.name)

include distinct

theorem filter_name_eq {rule : Rule} (listed : rule ∈ linter.rules) :
    linter.rules.filter (·.name = rule.name) = [rule] := by
  rcases List.append_of_mem listed with ⟨before, behind, whole⟩
  rw [whole, List.pairwise_append, List.pairwise_cons] at distinct
  rcases distinct with ⟨-, ⟨heads, -⟩, crossing⟩
  have front : before.filter (·.name = rule.name) = [] := by
    rw [List.filter_eq_nil_iff]
    intro other member
    simpa using crossing other member rule List.mem_cons_self
  have back : behind.filter (·.name = rule.name) = [] := by
    rw [List.filter_eq_nil_iff]
    intro other member
    simpa using (heads other member).symm
  rw [whole, List.filter_append, front, List.filter_cons_of_pos (by simp), back]
  rfl

theorem encounters_filter {rule : Rule} (listed : rule ∈ linter.rules) (places : List Place) :
    (linter.encounters places).filter (·.2.name = rule.name) =
      (Linter.mk [rule]).encounters places := by
  have own (place : Place) : (linter.rules.filter (·.sees place)).filter (·.name = rule.name) =
      [rule].filter (·.sees place) := by
    rw [List.filter_comm, filter_name_eq distinct listed]
  rw [encounters, List.filter_flatMap, encounters]
  congr 1
  funext place
  rw [List.filter_map, ← own]
  rfl

end Names

section Check

variable {linter : Linter} {source : String} {tree : Tree} {found : List Diagnostic}

theorem report_eq_ok_iff : linter.report source tree = .ok found ↔
    ∃ emitted, linter.emissions source tree = .ok emitted ∧
      emitted.map (·.diagnostic) = found := by
  have same := foldlM_encounter_eq source (linter.encounters (Place.root tree).walk) {}
  rw [report, emissions]
  simp only [bind, Except.bind]
  cases ran : (linter.encounters (Place.root tree).walk).foldlM (encounter source) {} with
  | error fault =>
      rw [ran] at same
      cases logged : emit source (linter.encounters (Place.root tree).walk) {} with
      | error fault => simp
      | ok emitted =>
          rw [logged] at same
          cases same
  | ok last =>
      rw [ran] at same
      cases logged : emit source (linter.encounters (Place.root tree).walk) {} with
      | error fault =>
          rw [logged] at same
          cases same
      | ok emitted =>
          rw [logged] at same
          simp only [Except.map, Except.ok.injEq, List.nil_append] at same
          simp [same, pure, Except.pure]

def sortEmissions (emitted : List Emission) : List Emission :=
  emitted.mergeSort fun first second => first.diagnostic.span.precedes second.diagnostic.span

theorem check_eq_ok_iff : linter.check source tree = .ok found ↔
    ∃ emitted, linter.emissions source tree = .ok emitted ∧
      (sortEmissions emitted).map (·.diagnostic) = found := by
  have sorted (emitted : List Emission) : (sortEmissions emitted).map (·.diagnostic) =
      (emitted.map (·.diagnostic)).mergeSort fun left right => left.span.precedes right.span :=
    List.map_mergeSort fun _ _ _ _ => rfl
  constructor
  · intro checked
    rcases exists_of_bind_eq_ok checked with ⟨reported, report, same⟩
    cases same
    rcases report_eq_ok_iff.1 report with ⟨emitted, run, rfl⟩
    exact ⟨emitted, run, sorted emitted⟩
  · rintro ⟨emitted, run, rfl⟩
    rw [check, report_eq_ok_iff.2 ⟨emitted, run, rfl⟩, sorted]
    rfl

theorem filter_sortEmissions (keep : Emission → Bool) (emitted : List Emission) :
    (sortEmissions emitted).filter keep = sortEmissions (emitted.filter keep) := by
  apply filter_mergeSort
  · exact fun _ _ _ => Span.precedes_trans
  · exact fun first second => Span.precedes_total first.diagnostic.span second.diagnostic.span

theorem sortEmissions_ordered (emitted : List Emission) :
    (sortEmissions emitted).Pairwise fun first second =>
      first.diagnostic.span.precedes second.diagnostic.span := by
  apply List.pairwise_mergeSort
  · exact fun _ _ _ => Span.precedes_trans
  · exact fun first second => Span.precedes_total first.diagnostic.span second.diagnostic.span

/-- Reports of one span stay in the order in which they were made. -/
theorem sortEmissions_stable (emitted : List Emission) (span : Span) :
    (sortEmissions emitted).filter (·.diagnostic.span = span) =
      emitted.filter (·.diagnostic.span = span) := by
  rw [filter_sortEmissions]
  apply List.mergeSort_of_pairwise
  rw [List.pairwise_filter]
  apply List.pairwise_of_forall
  intro first second firstSpan secondSpan
  rw [of_decide_eq_true firstSpan, of_decide_eq_true secondSpan]
  simpa using Span.precedes_total span span

end Check

def shownTo (linter : Linter) (rule : Rule) (tree : Tree) : List Place :=
  ((linter.encounters (Place.root tree).walk).filter (·.2.name = rule.name)).map (·.1)

/-- The diagnostics of a joint run, which are those of the sorted emissions, and what follows for
the rules: nothing that was emitted is lost, and each rule has said what it says when it is alone. -/
structure Attributes (linter : Linter) (source : String) (tree : Tree)
    (emitted sorted : List Emission) (found : List Diagnostic) : Prop where
  emitted_eq : linter.emissions source tree = .ok emitted
  found_eq : found = sorted.map (·.diagnostic)
  perm : sorted.Perm emitted
  ordered : found.Pairwise fun first second => first.span.precedes second.span
  stable : ∀ span, sorted.filter (·.diagnostic.span = span) =
    emitted.filter (·.diagnostic.span = span)
  /-- Emissions follow the walk and, at one place, the list of the rules. -/
  walked : emitted.Pairwise fun first second =>
    first.place = second.place ∧ first.rule = second.rule ∨
      Earlier linter.rules (Place.root tree).preorder (first.place, first.rule)
        (second.place, second.rule)
  alone : ∀ rule ∈ linter.rules, (Linter.mk [rule]).check source tree =
    .ok ((sorted.filter (·.rule.name = rule.name)).map (·.diagnostic))

section Joint

variable {linter : Linter}
  (distinct : linter.rules.Pairwise fun rule other => rule.name ≠ other.name)
  (separate : ∀ rule ∈ linter.rules, rule.KeepsToItself)

include distinct

theorem shownTo_eq {rule : Rule} (listed : rule ∈ linter.rules) (tree : Tree) :
    linter.shownTo rule tree = (Place.root tree).preorder.filter
      fun place => rule.kinds = [] ∨ place.kind ∈ rule.kinds := by
  have sees : rule.sees = fun place => decide (rule.kinds = [] ∨ place.kind ∈ rule.kinds) := by
    funext place
    rw [Bool.eq_iff_iff, Rule.sees, Bool.or_eq_true, List.isEmpty_iff, List.contains_iff_mem,
      decide_eq_true_eq]
  rw [shownTo, encounters_filter distinct listed, encounters_single, List.map_map, sees,
    Place.walk_eq_preorder]
  exact List.map_id _

include separate

variable {source : String} {tree : Tree} {emitted : List Emission}

theorem emissions_single (run : linter.emissions source tree = .ok emitted) {rule : Rule}
    (listed : rule ∈ linter.rules) :
    (Linter.mk [rule]).emissions source tree = .ok (emitted.filter (·.rule.name = rule.name)) := by
  rw [emissions, ← encounters_filter distinct listed]
  exact emit_filter (fun pair met => separate _ (rule_of_mem_encounters pair met))
    (.refl rule.name {}) run

theorem attributes_of_emissions (run : linter.emissions source tree = .ok emitted) :
    linter.Attributes source tree emitted (sortEmissions emitted)
      ((sortEmissions emitted).map (·.diagnostic)) where
  emitted_eq := run
  found_eq := rfl
  perm := List.mergeSort_perm _ _
  ordered := by
    rw [List.pairwise_map]
    exact sortEmissions_ordered emitted
  stable := sortEmissions_stable emitted
  walked := by
    rw [← Place.walk_eq_preorder]
    exact emit_ordered encounters_ordered run
  alone := by
    intro rule listed
    rw [check_eq_ok_iff]
    refine ⟨_, emissions_single distinct separate run listed, ?_⟩
    rw [filter_sortEmissions]

theorem exists_check_iff : (∃ found, linter.check source tree = .ok found) ↔
    ∀ rule ∈ linter.rules, ∃ own, (Linter.mk [rule]).check source tree = .ok own := by
  constructor
  · rintro ⟨found, checked⟩ rule listed
    rcases check_eq_ok_iff.1 checked with ⟨emitted, run, -⟩
    exact ⟨_, (attributes_of_emissions distinct separate run).alone rule listed⟩
  · intro alone
    have able : ∃ emitted, linter.emissions source tree = .ok emitted := by
      apply exists_emit (fun pair met => separate _ (rule_of_mem_encounters pair met))
        rule_of_mem_encounters
      intro rule listed
      rcases alone rule listed with ⟨own, checked⟩
      rcases check_eq_ok_iff.1 checked with ⟨emitted, run, -⟩
      rw [emissions, ← encounters_filter distinct listed] at run
      exact ⟨{}, emitted, .refl rule.name {}, run⟩
    rcases able with ⟨emitted, run⟩
    exact ⟨_, check_eq_ok_iff.2 ⟨emitted, run, rfl⟩⟩

end Joint

/-- Rules of different names that keep to themselves do not interfere. Each is shown the nodes of its
kinds in pre-order, a joint run succeeds when each of them does alone, and then it reports what
they do: sorted by span, reports of one span in the order of the walk and of the rules, and those
of one rule as they come when it runs alone. -/
theorem rules_do_not_interfere (linter : Linter)
    (distinct : linter.rules.Pairwise fun rule other => rule.name ≠ other.name)
    (separate : ∀ rule ∈ linter.rules, rule.KeepsToItself) (source : String) (tree : Tree) :
    ((Place.root tree).preorder.Pairwise fun first second => first.address ≠ second.address) ∧
    (∀ rule ∈ linter.rules, linter.shownTo rule tree = (Place.root tree).preorder.filter
      fun place => rule.kinds = [] ∨ place.kind ∈ rule.kinds) ∧
    ((∃ found, linter.check source tree = .ok found) ↔
      ∀ rule ∈ linter.rules, ∃ own, (Linter.mk [rule]).check source tree = .ok own) ∧
    ∀ found, linter.check source tree = .ok found →
      ∃ emitted sorted, linter.Attributes source tree emitted sorted found := by
  refine ⟨Place.preorder_address_distinct _, fun rule listed => shownTo_eq distinct listed tree,
    exists_check_iff distinct separate, ?_⟩
  intro found checked
  rcases check_eq_ok_iff.1 checked with ⟨emitted, run, rfl⟩
  exact ⟨emitted, _, attributes_of_emissions distinct separate run⟩

theorem exists_check_once {name : String} {kinds : List String}
    {judge : String → Place → Except Fault (Option Diagnostic)} {source : String}
    (able : ∀ place, ∃ answer, judge source place = .ok answer) (tree : Tree) :
    ∃ own, (Linter.mk [.once name kinds judge]).check source tree = .ok own := by
  apply exists_bind_eq_ok
  · apply exists_bind_eq_ok
    · apply exists_foldlM
      intro findings met member
      rw [encounter, List.mem_singleton.1 (rule_of_mem_encounters met member), Rule.once_check]
      rcases able met.1 with ⟨_ | _, judged⟩ <;> rw [judged] <;> exact ⟨_, rfl⟩
    · exact fun _ _ => ⟨_, rfl⟩
  · exact fun _ _ => ⟨_, rfl⟩

/-- A rule that is shown every node and reports each of them. -/
def everyNodeRule : Rule :=
  .once "every-node" [] fun _ place =>
    .ok (some { violation := { name := "EveryNode", body := place.kind }, span := place.span })

def everyNodeAndCamelCase : Linter :=
  ⟨[everyNodeRule, camelCaseRule .always]⟩

/-- The alias is reported twice at one span, and the missing name once. -/
theorem rules_do_not_interfere_importTree :
    everyNodeAndCamelCase.rules.Pairwise (fun rule other => rule.name ≠ other.name) ∧
      (∀ rule ∈ everyNodeAndCamelCase.rules, rule.KeepsToItself) ∧
      (everyNodeAndCamelCase.shownTo everyNodeRule importTree).length = 9 ∧
      ∃ found emitted sorted,
        everyNodeAndCamelCase.check importSource importTree = .ok found ∧
        everyNodeAndCamelCase.Attributes importSource importTree emitted sorted found := by
  have distinct : everyNodeAndCamelCase.rules.Pairwise
      fun rule other => rule.name ≠ other.name := by decide
  have separate : ∀ rule ∈ everyNodeAndCamelCase.rules, rule.KeepsToItself := by
    intro rule listed
    rcases List.mem_cons.1 listed with rfl | later
    · exact Rule.keepsToItself_once _ _ _
    · rw [List.mem_singleton.1 later]
      exact keepsToItself_camelCaseRule .always
  have alone : ∀ rule ∈ everyNodeAndCamelCase.rules, ∃ own,
      (Linter.mk [rule]).check importSource importTree = .ok own := by
    intro rule listed
    rcases List.mem_cons.1 listed with rfl | later
    · exact exists_check_once (fun _ => ⟨_, rfl⟩) importTree
    · rw [List.mem_singleton.1 later]
      exact ⟨_, check_eq (by decide) (by decide) .always⟩
  rcases rules_do_not_interfere everyNodeAndCamelCase distinct separate importSource importTree with
    ⟨-, shown, able, joint⟩
  have all : (everyNodeAndCamelCase.shownTo everyNodeRule importTree).length = 9 := by
    rw [shown everyNodeRule List.mem_cons_self]
    decide
  rcases able.2 alone with ⟨found, checked⟩
  rcases joint found checked with ⟨emitted, sorted, attributes⟩
  exact ⟨distinct, separate, all, found, emitted, sorted, checked, attributes⟩

end Linter

end NameLint
