import NameLint.Proofs.Lint.Independence

/-!
# Marks and the past

A session asks for checks, classifications, marks and resets, in any order and of any nodes of one
tree, and hands one set of marks on from request to request. The set is hidden, but what it holds
can be told from the past: since the last reset, a node has been marked under a name, or a check has
reported it. So the past settles every later answer.
-/

namespace NameLint.Naming

set_option autoImplicit false

structure Node (tree : Tree) where
  place : Place
  within : place ∈ (Place.root tree).preorder

variable {tree : Tree}

theorem Node.eq_of_address_eq {first second : Node tree}
    (same : first.place.address = second.place.address) : first = second := by
  have equal := Place.eq_of_address_eq first.within second.within same
  cases first
  cases second
  cases equal
  rfl

inductive Request (tree : Tree) where
  | check (node : Node tree)
  | classify (node : Node tree)
  | mark (node : Node tree) (rule : String)
  | reset

inductive Answer where
  | found (diagnostics : List Diagnostic)
  | verdict (diagnostic : Option Diagnostic)
  | marked (isFresh : Bool)
  | emptied

structure Exchange (tree : Tree) where
  request : Request tree
  answer : Except Fault Answer

/-- The answer to a request, and the marks behind it. What is abandoned leaves the marks alone. -/
def respond (mode : PropertiesMode) (source : String) (reported : Reported) :
    Request tree → Except Fault Answer × Reported
  | .check node =>
      match checkName mode source node.place reported with
      | .ok (diagnostics, after) => (.ok (.found diagnostics), after)
      | .error fault => (.error fault, reported)
  | .classify node => ((classify mode source node.place).map .verdict, reported)
  | .mark node rule =>
      (.ok (.marked (reported.mark rule node.place).1), (reported.mark rule node.place).2)
  | .reset => (.ok .emptied, {})

def exchanges (mode : PropertiesMode) (source : String) :
    Reported → List (Request tree) → List (Exchange tree)
  | _, [] => []
  | reported, request :: rest =>
      ⟨request, (respond mode source reported request).1⟩ ::
        exchanges mode source (respond mode source reported request).2 rest

def marksAfter (mode : PropertiesMode) (source : String) (reported : Reported)
    (requests : List (Request tree)) : Reported :=
  requests.foldl (fun marks request => (respond mode source marks request).2) reported

section Past

/-- The exchange puts the mark of a rule on a node: on request, or by a report. -/
def Exchange.Takes (exchange : Exchange tree) (rule : String) (node : Node tree) : Prop :=
  exchange.request = .mark node rule ∨
    rule = ruleName ∧ exchange.request = .check node ∧
      ∃ diagnostic, exchange.answer = .ok (.found [diagnostic])

/-- The node has been marked or reported under the name since the last reset. -/
def Taken (past : List (Exchange tree)) (rule : String) (node : Node tree) : Prop :=
  ∃ earlier exchange later, past = earlier ++ exchange :: later ∧ exchange.Takes rule node ∧
    ∀ other ∈ later, other.request ≠ .reset

theorem not_taken_nil (rule : String) (node : Node tree) : ¬ Taken [] rule node := by
  rintro ⟨earlier, exchange, later, whole, -, -⟩
  exact absurd whole (by simp)

theorem taken_concat_iff {past : List (Exchange tree)} {exchange : Exchange tree} {rule : String}
    {node : Node tree} : Taken (past ++ [exchange]) rule node ↔
      exchange.Takes rule node ∨ exchange.request ≠ .reset ∧ Taken past rule node := by
  constructor
  · rintro ⟨earlier, taker, later, whole, takes, unreset⟩
    rcases List.eq_nil_or_concat later with rfl | ⟨between, last, rfl⟩
    · have same : exchange = taker := (List.append_inj' whole rfl).2 |> List.head_eq_of_cons_eq
      exact .inl (same ▸ takes)
    · have parts : past ++ [exchange] = (earlier ++ taker :: between) ++ [last] := by
        simpa using whole
      obtain ⟨shape, ends⟩ := List.append_inj' parts rfl
      have same : exchange = last := List.head_eq_of_cons_eq ends
      refine .inr ⟨same ▸ unreset last (by simp), earlier, taker, between, shape, takes, ?_⟩
      exact fun other member => unreset other (by simp [member])
  · rintro (takes | ⟨kept, earlier, taker, later, rfl, takes, unreset⟩)
    · exact ⟨past, exchange, [], rfl, takes, by simp⟩
    · refine ⟨earlier, taker, later ++ [exchange], by simp, takes, ?_⟩
      intro other member
      rcases List.mem_append.1 member with inside | last
      · exact unreset other inside
      · rw [List.mem_singleton.1 last]
        exact kept

end Past

section Steps

variable {mode : PropertiesMode} {source : String} {reported : Reported}

def Finds (mode : PropertiesMode) (source : String) (node : Node tree)
    (diagnostic : Diagnostic) : Prop :=
  isName node.place = true ∧ classify mode source node.place = .ok (some diagnostic)

theorem mark_fst (reported : Reported) (rule : String) (place : Place) :
    (reported.mark rule place).1 = !reported.has rule place := by
  rw [Reported.mark]
  cases reported.has rule place <;> rfl

theorem has_mark_iff (rule other : String) (node second : Node tree) :
    (reported.mark rule node.place).2.has other second.place = true ↔
      (node = second ∧ rule = other) ∨ reported.has other second.place = true := by
  have addresses : second.place.address = node.place.address ↔ node = second :=
    ⟨fun same => Node.eq_of_address_eq same.symm, fun same => by rw [same]⟩
  rw [Reported.mark]
  split
  case isTrue marked =>
    refine ⟨.inr, ?_⟩
    rintro (⟨rfl, rfl⟩ | already)
    · exact marked
    · exact already
  case isFalse unmarked =>
    simp only [Reported.has, List.contains_cons, Bool.or_eq_true, beq_iff_eq, Mark.mk.injEq,
      addresses]
    rw [and_comm, eq_comm (a := other)]

/-- A check of a name answers what the classifier finds there, unless the name is marked, and marks
what it finds. -/
theorem respond_check_eq (mode : PropertiesMode) (source : String) (reported : Reported)
    (node : Node tree) : respond mode source reported (.check node) =
      match if isName node.place then classify mode source node.place else .ok none with
      | .error fault => (.error fault, reported)
      | .ok none => (.ok (.found []), reported)
      | .ok (some diagnostic) =>
          (.ok (.found (if reported.has ruleName node.place then [] else [diagnostic])),
            (reported.mark ruleName node.place).2) := by
  by_cases named : isName node.place = true
  · have listed : nameKinds.contains node.place.kind = true := named
    simp only [respond, checkName, if_pos listed, if_pos named]
    cases classify mode source node.place with
    | error fault => rfl
    | ok answer =>
        cases answer with
        | none => rfl
        | some diagnostic =>
            simp only [bind, Except.bind, Reported.mark]
            cases reported.has ruleName node.place <;> rfl
  · have unlisted : ¬ nameKinds.contains node.place.kind = true := named
    simp only [respond, checkName, if_neg unlisted, if_neg named]

/-- A check reports what the classifier finds at an unmarked name and marks the name. Otherwise it
keeps the marks, and reports nothing unless the classifier gave up. -/
theorem respond_check (mode : PropertiesMode) (source : String) (reported : Reported)
    (node : Node tree) :
    (∃ diagnostic, Finds mode source node diagnostic ∧ reported.has ruleName node.place = false ∧
      respond mode source reported (.check node) =
        (.ok (.found [diagnostic]), (reported.mark ruleName node.place).2)) ∨
    (∀ diagnostic, Finds mode source node diagnostic → reported.has ruleName node.place = true) ∧
      (respond mode source reported (.check node) = (.ok (.found []), reported) ∨
        ∃ fault, classify mode source node.place = .error fault ∧
          respond mode source reported (.check node) = (.error fault, reported)) := by
  rw [respond_check_eq]
  by_cases named : isName node.place = true
  · simp only [Finds, named, true_and, if_true]
    cases classify mode source node.place with
    | error fault => exact .inr ⟨by simp, .inr ⟨fault, rfl, rfl⟩⟩
    | ok answer =>
        cases answer with
        | none => exact .inr ⟨by simp, .inl rfl⟩
        | some diagnostic =>
            simp only [Reported.mark]
            cases reported.has ruleName node.place with
            | false => exact .inl ⟨diagnostic, rfl, rfl, rfl⟩
            | true => exact .inr ⟨fun _ _ => rfl, .inl rfl⟩
  · rw [if_neg named]
    exact .inr ⟨fun diagnostic finds => absurd finds.1 named, .inl rfl⟩

theorem has_respond_iff (request : Request tree) (rule : String) (node : Node tree) :
    (respond mode source reported request).2.has rule node.place = true ↔
      (Exchange.mk request (respond mode source reported request).1).Takes rule node ∨
        request ≠ .reset ∧ reported.has rule node.place = true := by
  cases request with
  | check asked =>
      rcases respond_check mode source reported asked with
        ⟨diagnostic, -, -, done⟩ | ⟨-, done | ⟨fault, -, done⟩⟩
      · rw [done, has_mark_iff, and_comm, eq_comm (a := ruleName)]
        simp [Exchange.Takes]
      · rw [done]
        simp [Exchange.Takes]
      · rw [done]
        simp [Exchange.Takes]
  | classify asked => simp [respond, Exchange.Takes]
  | mark asked name =>
      rw [respond, has_mark_iff]
      simp [Exchange.Takes]
  | reset => simp [respond, Exchange.Takes, Reported.has]

end Steps

section Runs

variable {mode : PropertiesMode} {source : String}

/-- The marks are those that the past has taken. -/
def Recalls (reported : Reported) (past : List (Exchange tree)) : Prop :=
  ∀ rule node, reported.has rule node.place = true ↔ Taken past rule node

theorem Recalls.respond {reported : Reported} {past : List (Exchange tree)}
    (recalls : Recalls reported past) (request : Request tree) :
    Recalls (respond mode source reported request).2
      (past ++ [⟨request, (respond mode source reported request).1⟩]) := by
  intro rule node
  rw [has_respond_iff, taken_concat_iff, recalls rule node]

theorem Recalls.marksAfter {reported : Reported} {past : List (Exchange tree)}
    (recalls : Recalls reported past) (requests : List (Request tree)) :
    Recalls (marksAfter mode source reported requests)
      (past ++ exchanges mode source reported requests) := by
  induction requests generalizing reported past with
  | nil =>
      rw [exchanges, List.append_nil]
      exact recalls
  | cons request rest ih =>
      rw [exchanges, List.append_cons]
      exact ih (recalls.respond request)

theorem recalls_marksAfter (mode : PropertiesMode) (source : String)
    (requests : List (Request tree)) :
    Recalls (marksAfter mode source {} requests) (exchanges mode source {} requests) := by
  have nothing : @Recalls tree {} [] :=
    fun rule node => iff_of_false Bool.false_ne_true (not_taken_nil rule node)
  exact nothing.marksAfter requests

theorem exists_of_exchanges_eq {reported : Reported} {requests : List (Request tree)}
    {past later : List (Exchange tree)} {exchange : Exchange tree}
    (record : exchanges mode source reported requests = past ++ exchange :: later) :
    ∃ before request after, requests = before ++ request :: after ∧
      past = exchanges mode source reported before ∧
      exchange = ⟨request, (respond mode source (marksAfter mode source reported before)
        request).1⟩ := by
  induction past generalizing reported requests with
  | nil =>
      cases requests with
      | nil => cases record
      | cons request rest =>
          rw [exchanges, List.nil_append, List.cons.injEq] at record
          exact ⟨[], request, rest, rfl, rfl, record.1.symm⟩
  | cons first others ih =>
      cases requests with
      | nil => cases record
      | cons request rest =>
          rw [exchanges, List.cons_append, List.cons.injEq] at record
          obtain ⟨before, asked, after, rfl, shape, answered⟩ := ih record.2
          exact ⟨request :: before, asked, after, rfl, by rw [exchanges, ← shape, record.1],
            answered⟩

theorem exists_answer_of_wellFormed (formed : WellFormed source tree) {reported : Reported}
    (request : Request tree) : ∃ answer, (respond mode source reported request).1 = .ok answer := by
  cases request with
  | check node =>
      obtain ⟨answer, classified⟩ := classify_ok formed mode node.within
      rcases respond_check mode source reported node with
        ⟨diagnostic, -, -, done⟩ | ⟨-, done | ⟨fault, failed, -⟩⟩
      · exact ⟨_, by rw [done]⟩
      · exact ⟨_, by rw [done]⟩
      · rw [classified] at failed
        cases failed
  | classify node =>
      obtain ⟨answer, classified⟩ := classify_ok formed mode node.within
      exact ⟨.verdict answer, by rw [respond, classified]; rfl⟩
  | mark node rule => exact ⟨_, rfl⟩
  | reset => exact ⟨_, rfl⟩

end Runs

section Independence

variable {mode : PropertiesMode} {source : String} {own : String → Bool}

def Request.concerns (own : String → Bool) : Request tree → Bool
  | .check _ => true
  | .classify _ => false
  | .mark _ rule => own rule
  | .reset => true

def AgreeOnAll (own : String → Bool) (left right : Reported) : Prop :=
  ∀ name, own name = true → left.AgreeOn name right

theorem AgreeOnAll.mark {left right : Reported} (agree : AgreeOnAll own left right) {rule : String}
    (listed : own rule = true) (place : Place) :
    AgreeOnAll own (left.mark rule place).2 (right.mark rule place).2 := by
  intro name owned
  by_cases same : name = rule
  · rw [same]
    exact ((agree rule listed).mark place).2
  · exact (Reported.agreeOn_mark_of_ne same left place).symm.trans
      ((agree name owned).trans (Reported.agreeOn_mark_of_ne same right place))

theorem respond_congr (mode : PropertiesMode) (source : String) {left right : Reported}
    (agree : AgreeOnAll own left right)
    (listed : own ruleName = true) {request : Request tree}
    (concerned : request.concerns own = true) :
    (respond mode source left request).1 = (respond mode source right request).1 ∧
      AgreeOnAll own (respond mode source left request).2
        (respond mode source right request).2 := by
  cases request with
  | check node =>
      rw [respond_check_eq, respond_check_eq, (agree ruleName listed).has_eq node.place]
      split
      · exact ⟨rfl, agree⟩
      · exact ⟨rfl, agree⟩
      · exact ⟨rfl, agree.mark listed node.place⟩
  | classify node => cases concerned
  | mark node rule =>
      have owned : own rule = true := concerned
      rw [respond, respond, ((agree rule owned).mark node.place).1]
      exact ⟨rfl, agree.mark owned node.place⟩
  | reset => exact ⟨rfl, fun name _ => .refl name {}⟩

theorem agree_respond {reported : Reported} {request : Request tree}
    (aside : request.concerns own = false) :
    AgreeOnAll own (respond mode source reported request).2 reported := by
  intro name owned
  cases request with
  | check node => cases aside
  | classify node => exact .refl name reported
  | mark node rule =>
      have apart : name ≠ rule := by
        rintro rfl
        rw [Request.concerns, owned] at aside
        cases aside
      exact (Reported.agreeOn_mark_of_ne apart reported node.place).symm
  | reset => cases aside

theorem exchanges_filter {left right : Reported} (agree : AgreeOnAll own left right)
    (listed : own ruleName = true) (requests : List (Request tree)) :
    (exchanges mode source left requests).filter (·.request.concerns own) =
      exchanges mode source right (requests.filter (·.concerns own)) := by
  induction requests generalizing left right with
  | nil => rfl
  | cons request rest ih =>
      cases concerned : request.concerns own with
      | true =>
          obtain ⟨answer, agreeAfter⟩ := respond_congr mode source agree listed concerned
          simp only [exchanges, List.filter_cons, concerned, if_true, answer, ih agreeAfter]
      | false =>
          have agreeAfter : AgreeOnAll own (respond mode source left request).2 right :=
            fun name owned => (agree_respond concerned name owned).trans (agree name owned)
          simp only [exchanges, List.filter_cons, concerned, Bool.false_eq_true, if_false,
            ih agreeAfter]

end Independence

/-- How requests are answered behind a past. -/
structure ToldByPast (mode : PropertiesMode) (source : String) (past : List (Exchange tree))
    (reported : Reported) : Prop where
  check : ∀ (node : Node tree) (diagnostic : Diagnostic),
    (respond mode source reported (.check node)).1 = .ok (.found [diagnostic]) ↔
      Finds mode source node diagnostic ∧ ¬ Taken past ruleName node
  /-- A check that reports nothing keeps the marks. It has no answer where the classifier has
  none. -/
  silent : ∀ node : Node tree,
    (∀ diagnostic, (respond mode source reported (.check node)).1 ≠ .ok (.found [diagnostic])) →
      (respond mode source reported (.check node)).2 = reported ∧
        ((respond mode source reported (.check node)).1 = .ok (.found []) ∨
          ∃ fault, classify mode source node.place = .error fault ∧
            (respond mode source reported (.check node)).1 = .error fault)
  classify : ∀ node : Node tree, respond mode source reported (.classify node) =
    ((classify mode source node.place).map .verdict, reported)
  mark : ∀ (node : Node tree) (rule : String), ∃ isFresh,
    (respond mode source reported (.mark node rule)).1 = .ok (.marked isFresh) ∧
      (isFresh = true ↔ ¬ Taken past rule node)

theorem Recalls.toldByPast (mode : PropertiesMode) (source : String) {reported : Reported}
    {past : List (Exchange tree)} (recalls : Recalls reported past) :
    ToldByPast mode source past reported where
  check := by
    intro node diagnostic
    rw [← recalls ruleName node]
    rcases respond_check mode source reported node with
      ⟨found, finds, unmarked, done⟩ | ⟨marked, done | ⟨fault, failed, done⟩⟩
    · rw [done, unmarked]
      simp only [Except.ok.injEq, Answer.found.injEq, List.cons.injEq, and_true]
      constructor
      · rintro rfl
        exact ⟨finds, Bool.false_ne_true⟩
      · rintro ⟨other, -⟩
        have same := finds.2.symm.trans other.2
        rwa [Except.ok.injEq, Option.some.injEq] at same
    · rw [done]
      exact iff_of_false (by simp) fun ⟨finds, unmarked⟩ => unmarked (marked diagnostic finds)
    · rw [done]
      exact iff_of_false (by simp) fun ⟨finds, unmarked⟩ => unmarked (marked diagnostic finds)
  silent := by
    intro node unreported
    rcases respond_check mode source reported node with
      ⟨found, -, -, done⟩ | ⟨-, done | ⟨fault, failed, done⟩⟩
    · exact absurd (congrArg Prod.fst done) (unreported found)
    · rw [done]
      exact ⟨rfl, .inl rfl⟩
    · rw [done]
      exact ⟨rfl, .inr ⟨fault, failed, rfl⟩⟩
  classify := fun node => rfl
  mark := by
    intro node rule
    refine ⟨_, rfl, ?_⟩
    rw [mark_fst, ← recalls rule node, Bool.not_eq_true', Bool.not_eq_true]

def Exchange.Reports (exchange : Exchange tree) (node : Node tree) : Prop :=
  exchange.request = .check node ∧ ∃ diagnostic, exchange.answer = .ok (.found [diagnostic])

/-- Between two reports of one node there is a reset. -/
theorem exists_reset_between {mode : PropertiesMode} {source : String}
    {requests : List (Request tree)} {earlier between later : List (Exchange tree)}
    {first second : Exchange tree} {node : Node tree}
    (record : exchanges mode source {} requests = earlier ++ first :: between ++ second :: later)
    (once : first.Reports node) (again : second.Reports node) :
    ∃ exchange ∈ between, exchange.request = .reset := by
  obtain ⟨before, request, after, -, past, answered⟩ := exists_of_exchanges_eq record
  rw [answered] at again
  obtain ⟨rfl, diagnostic, reports⟩ := again
  have told := (recalls_marksAfter mode source before).toldByPast mode source
  rw [← past] at told
  have untaken := ((told.check node diagnostic).1 reports).2
  by_contra unreset
  push Not at unreset
  exact untaken ⟨earlier, first, between, rfl, .inr ⟨rfl, once⟩, unreset⟩

/-- The past of a session settles its answers: a check reports what the classifier finds unless the
name was taken since the last reset, and a mark is fresh unless it was set since. Classifications,
and marks under names that are left aside, change no answer to the other requests. No node is
reported twice without a reset in between, and in a well-formed tree nothing is abandoned. -/
theorem session_settled_by_past (mode : PropertiesMode) (source : String) (tree : Tree)
    (requests : List (Request tree)) :
    ToldByPast mode source (exchanges mode source {} requests)
      (marksAfter mode source {} requests) ∧
    (∀ own : String → Bool, own ruleName = true →
      (exchanges mode source {} requests).filter (·.request.concerns own) =
        exchanges mode source {} (requests.filter (·.concerns own))) ∧
    (∀ node earlier first between second later,
      exchanges mode source {} requests = earlier ++ first :: between ++ second :: later →
      first.Reports node → second.Reports node →
      ∃ exchange ∈ between, exchange.request = .reset) ∧
    (WellFormed source tree → ∀ exchange ∈ exchanges mode source {} requests,
      ∃ answer, exchange.answer = .ok answer) := by
  refine ⟨(recalls_marksAfter mode source requests).toldByPast mode source, ?_, ?_, ?_⟩
  · intro own listed
    exact exchanges_filter (fun name _ => .refl name {}) listed requests
  · intro node earlier first between second later record once again
    exact exists_reset_between record once again
  · intro formed exchange member
    obtain ⟨past, later, record⟩ := List.append_of_mem member
    obtain ⟨before, request, after, -, -, rfl⟩ := exists_of_exchanges_eq record
    exact exists_answer_of_wellFormed formed request

/-- A name is reported once, and once more behind a reset. -/
example :
    let node : Node importTree :=
      ⟨(Place.root importTree).preorder.get ⟨6, by decide⟩, List.get_mem _ _⟩
    ((exchanges .always importSource {}
      [.check node, .mark node "other", .check node, .reset, .check node]).map fun exchange =>
        match exchange.answer with
        | .ok (.found diagnostics) => diagnostics.length
        | _ => 0) = [1, 0, 0, 0, 1] := by
  decide

end NameLint.Naming
