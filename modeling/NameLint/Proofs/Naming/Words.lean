import NameLint.Proofs.Naming.CleanRename

/-!
# Names as words

The core of a name is a row of words with runs of separators between them, and camel case is the
words put side by side, each but the first with its first character raised. The rewrite reads the
core character by character; that it does the same is an induction on the words, with what it does
behind a separator as the statement that is carried along.
-/

namespace NameLint.Naming

open NameLint.Text

set_option autoImplicit false

/-- The text is made of the words, in their order, with a run of separators between any two. -/
inductive CutIntoWords : List Char → List (List Char) → Prop
  | none : CutIntoWords [] []
  | last {word : List Char} (present : word ≠ []) (clean : '_' ∉ word) : CutIntoWords word [word]
  | word {word run rest : List Char} {words : List (List Char)} (present : word ≠ [])
      (clean : '_' ∉ word) (separated : run ≠ []) (separators : ∀ c ∈ run, c = '_')
      (more : words ≠ []) (later : CutIntoWords rest words) :
      CutIntoWords (word ++ run ++ rest) (word :: words)

/-- The word with the full upper-case form of its first character. -/
def raiseFirst : List Char → List Char
  | [] => []
  | c :: rest => uppercaseChar c ++ rest

/-- The words side by side, all but the first raised. -/
def inCamelCase : List (List Char) → List Char
  | [] => []
  | first :: others => first ++ others.flatMap raiseFirst

section Join

theorem joinWords_append_of_clean {word : List Char} (clean : '_' ∉ word) (rest : List Char) :
    joinWords false (word ++ rest) = word ++ joinWords false rest := by
  induction word with
  | nil => rfl
  | cons c word ih =>
      rw [List.mem_cons, not_or] at clean
      have kept : ¬ isMarker c := fun marker => clean.1 (isMarker_iff.1 marker).symm
      rw [List.cons_append, joinWords, if_neg kept, if_neg Bool.false_ne_true, ih clean.2]
      rfl

theorem joinWords_of_clean {word : List Char} (clean : '_' ∉ word) :
    joinWords false word = word := by
  have whole := joinWords_append_of_clean clean []
  rwa [List.append_nil, joinWords, List.append_nil] at whole

theorem joinWords_raise_append {word : List Char} (present : word ≠ []) (clean : '_' ∉ word)
    (rest : List Char) : joinWords true (word ++ rest) = raiseFirst word ++ joinWords false rest := by
  cases word with
  | nil => exact absurd rfl present
  | cons c word =>
      rw [List.mem_cons, not_or] at clean
      have kept : ¬ isMarker c := fun marker => clean.1 (isMarker_iff.1 marker).symm
      rw [List.cons_append, joinWords, if_neg kept, if_pos rfl, joinWords_append_of_clean clean.2,
        raiseFirst, List.append_assoc]

theorem joinWords_separators {run : List Char} (separated : run ≠ [])
    (separators : ∀ c ∈ run, c = '_') (raise : Bool) (rest : List Char) :
    joinWords raise (run ++ rest) = joinWords true rest := by
  induction run generalizing raise with
  | nil => exact absurd rfl separated
  | cons c run ih =>
      have marker : isMarker c := isMarker_iff.2 (separators c List.mem_cons_self)
      rw [List.cons_append, joinWords, if_pos marker]
      cases run with
      | nil => rfl
      | cons other run =>
          exact ih (List.cons_ne_nil _ _)
            (fun other member => separators other (List.mem_cons_of_mem _ member)) true

theorem joinWords_raise_eq {text : List Char} {words : List (List Char)}
    (cut : CutIntoWords text words) : joinWords true text = words.flatMap raiseFirst := by
  induction cut with
  | none => rfl
  | @last word present clean =>
      have whole := joinWords_raise_append present clean []
      rw [List.append_nil, joinWords, List.append_nil] at whole
      rw [whole, List.flatMap_singleton]
  | word present clean separated separators more later ih =>
      rw [List.append_assoc, joinWords_raise_append present clean,
        joinWords_separators separated separators, ih, List.flatMap_cons]

/-- However the text is cut into words, the rewrite puts these words in camel case. -/
theorem joinWords_eq {text : List Char} {words : List (List Char)}
    (cut : CutIntoWords text words) : joinWords false text = inCamelCase words := by
  cases cut with
  | none => rfl
  | last present clean => rw [joinWords_of_clean clean, inCamelCase, List.flatMap_nil, List.append_nil]
  | word present clean separated separators more later =>
      rw [List.append_assoc, joinWords_append_of_clean clean,
        joinWords_separators separated separators, joinWords_raise_eq later, inCamelCase]

end Join

section Cut

theorem CutIntoWords.eq_nil {text : List Char} (cut : CutIntoWords text []) : text = [] := by
  cases cut
  rfl

theorem CutIntoWords.cons {c : Char} (kept : c ≠ '_') {text word : List Char}
    {words : List (List Char)} (cut : CutIntoWords text (word :: words)) :
    CutIntoWords (c :: text) ((c :: word) :: words) := by
  cases cut with
  | last present clean =>
      apply CutIntoWords.last (List.cons_ne_nil _ _)
      rw [List.mem_cons, not_or]
      exact ⟨kept.symm, clean⟩
  | word present clean separated separators more later =>
      rw [← List.cons_append, ← List.cons_append]
      apply CutIntoWords.word (List.cons_ne_nil _ _) _ separated separators more later
      rw [List.mem_cons, not_or]
      exact ⟨kept.symm, clean⟩

/-- A text that does not end with a separator is a run of separators, which may be empty, in front
of words. -/
theorem exists_run_cutIntoWords {text : List Char} (last : text.getLast? ≠ some '_') :
    ∃ run rest words, text = run ++ rest ∧ (∀ c ∈ run, c = '_') ∧ CutIntoWords rest words := by
  induction text with
  | nil => exact ⟨[], [], [], rfl, by simp, .none⟩
  | cons c text ih =>
      have lastLater : text.getLast? ≠ some '_' := by
        intro marker
        apply last
        rw [List.getLast?_cons, marker]
        rfl
      rcases ih lastLater with ⟨run, rest, words, rfl, separators, cut⟩
      by_cases marker : c = '_'
      · refine ⟨c :: run, rest, words, rfl, ?_, cut⟩
        intro other member
        rcases List.mem_cons.1 member with rfl | later
        · exact marker
        · exact separators other later
      · have single : '_' ∉ [c] := by simpa using Ne.symm marker
        cases words with
        | nil =>
            have none := cut.eq_nil
            subst none
            -- only separators can follow the character, and the text does not end with one
            rcases List.eq_nil_or_concat' run with rfl | ⟨run, final, rfl⟩
            · exact ⟨[], [c], [[c]], rfl, by simp, .last (List.cons_ne_nil _ _) single⟩
            · rw [List.append_nil, ← List.cons_append, List.getLast?_concat,
                separators final (by simp)] at last
              exact absurd rfl last
        | cons word words =>
            cases run with
            | nil => exact ⟨[], _, _, rfl, by simp, cut.cons marker⟩
            | cons separator run =>
                refine ⟨[], _, [c] :: word :: words, rfl, by simp, ?_⟩
                rw [← List.singleton_append, ← List.append_assoc]
                exact .word (List.cons_ne_nil _ _) single (List.cons_ne_nil _ _) separators
                  (List.cons_ne_nil _ _) cut

theorem exists_cutIntoWords {text : List Char} (head : text.head? ≠ some '_')
    (last : text.getLast? ≠ some '_') : ∃ words, CutIntoWords text words := by
  rcases exists_run_cutIntoWords last with ⟨run, rest, words, rfl, separators, cut⟩
  cases run with
  | nil => exact ⟨words, cut⟩
  | cons separator run =>
      rw [List.cons_append, List.head?_cons, separators separator List.mem_cons_self] at head
      exact absurd rfl head

end Cut

section Split

/-- The name is its parts, and the parts around the core are the longest runs of markers at its
start and at the end of what follows. -/
structure SplitsAtMarkers (name : String) (parts : NameParts) : Prop where
  whole : name = parts.lead ++ parts.core ++ parts.trail
  lead : ∀ c ∈ parts.lead.toList, c = '_'
  lead_longest : ∀ run rest, name.toList = run ++ rest → (∀ c ∈ run, c = '_') →
    run.length ≤ parts.lead.toList.length
  trail : ∀ c ∈ parts.trail.toList, c = '_'
  trail_longest : ∀ rest run, parts.core.toList ++ parts.trail.toList = rest ++ run →
    (∀ c ∈ run, c = '_') → run.length ≤ parts.trail.toList.length
  head : parts.core.toList.head? ≠ some '_'
  last : parts.core.toList.getLast? ≠ some '_'
  markers : (∀ c ∈ name.toList, c = '_') → parts = ⟨name, "", ""⟩

theorem length_le_of_markers {run rest lead tail : List Char} (same : run ++ rest = lead ++ tail)
    (markers : ∀ c ∈ run, c = '_') (head : tail.head? ≠ some '_') : run.length ≤ lead.length := by
  rcases List.append_eq_append_iff.1 same with ⟨between, rfl, -⟩ | ⟨between, rfl, rfl⟩
  · rw [List.length_append]
    exact Nat.le_add_right _ _
  · cases between with
    | nil => rw [List.append_nil]
    | cons c between =>
        have marker := markers c (by simp)
        rw [List.cons_append, List.head?_cons, marker] at head
        exact absurd rfl head

theorem splitsAtMarkers (name : String) : SplitsAtMarkers name (splitMarkers name) where
  whole := by
    rw [← String.toList_inj, String.toList_append, String.toList_append]
    exact toList_splitMarkers name
  lead := fun _ => eq_marker_of_mem_lead name
  lead_longest := by
    intro run rest shape markers
    rw [toList_splitMarkers name, List.append_assoc] at shape
    exact length_le_of_markers shape.symm markers (head_core_trail name)
  trail := fun _ => eq_marker_of_mem_trail name
  trail_longest := by
    intro rest run shape markers
    have backwards := congrArg List.reverse shape
    rw [List.reverse_append, List.reverse_append] at backwards
    have bound := length_le_of_markers backwards.symm (by simpa using markers)
      (by rw [List.head?_reverse]; exact getLast_core name)
    simpa using bound
  head := head_core name
  last := getLast_core name
  markers := by
    intro markers
    have all : ∀ c ∈ name.toList, isMarker c := fun c member => isMarker_iff.2 (markers c member)
    rw [splitMarkers, List.takeWhile_eq_self_iff.2 all, List.dropWhile_eq_nil_iff.2 all,
      String.ofList_toList]
    rfl

end Split

section Rewrite

theorem splitMarkers_camelCase_eq (name : String) : splitMarkers (camelCase name) =
    ⟨(splitMarkers name).lead, String.ofList (joinWords false (splitMarkers name).core.toList),
      (splitMarkers name).trail⟩ := by
  by_cases present : (splitMarkers name).core.toList = []
  · have core : (splitMarkers name).core = String.ofList [] := by
      rw [← present, String.ofList_toList]
    rw [camelCase_of_core_eq_nil present, present, joinWords, ← core]
  · exact splitMarkers_camelCase present

theorem camelCase_camelCase (name : String) : camelCase (camelCase name) = camelCase name := by
  have clean := marker_not_mem_joinWords false (splitMarkers name).core.toList
  rw [camelCase, splitMarkers_camelCase_eq, String.toList_ofList, joinWords_of_clean clean, camelCase]

theorem camelCase_eq_self {name : String} (plain : ¬ HasInnerMarker name) :
    camelCase name = name := by
  have clean : '_' ∉ (splitMarkers name).core.toList := fun separated => plain
    (hasInnerMarker_of_core (toList_splitMarkers name) (head_core name) (getLast_core name) separated)
  rw [← String.toList_inj, toList_camelCase, joinWords_of_clean clean]
  exact (toList_splitMarkers name).symm

end Rewrite

/-- On every name the rewrite puts the words of the core in camel case between the markers, which
are the longest runs at its ends. So a second rewrite changes nothing, the markers of the new name
are those of the old one, and a name without separators inside is left as it is. -/
theorem camelCase_joins_words (name : String) :
    SplitsAtMarkers name (splitMarkers name) ∧
    (∃ words, CutIntoWords (splitMarkers name).core.toList words) ∧
    (∀ words, CutIntoWords (splitMarkers name).core.toList words →
      camelCase name = (splitMarkers name).lead ++ String.ofList (inCamelCase words) ++
        (splitMarkers name).trail ∧
      splitMarkers (camelCase name) =
        ⟨(splitMarkers name).lead, String.ofList (inCamelCase words), (splitMarkers name).trail⟩) ∧
    camelCase (camelCase name) = camelCase name ∧
    (¬ HasInnerMarker name → camelCase name = name) := by
  refine ⟨splitsAtMarkers name, exists_cutIntoWords (head_core name) (getLast_core name), ?_,
    camelCase_camelCase name, camelCase_eq_self⟩
  intro words cut
  rw [splitMarkers_camelCase_eq, camelCase, joinWords_eq cut]
  exact ⟨rfl, rfl⟩

end NameLint.Naming
