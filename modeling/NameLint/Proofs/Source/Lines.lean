import Mathlib.Data.List.Range
import NameLint.Proofs.Source.LineEnds

/-!
# Lines

A text is cut behind each of its line ends. The index holds how far the pieces in front of each
piece reach, so its lines are these pieces: they follow each other without gaps, each but the last
holds its one line end, and an offset inside the text lies in the piece that its line names and in
no other.
-/

namespace NameLint.Source

open NameLint.Text

set_option autoImplicit false

def IsUnended (text : List Char) : Prop :=
  ∀ c ∈ text, c ≠ '\n' ∧ c ≠ '\r'

/-- A text and its lines: each but the last ends with one line end and has no other, and the last
has none. A carriage return is a line end of its own where no line feed follows it. -/
inductive CutIntoLines : List Char → List (List Char) → Prop
  | last {line : List Char} (unended : IsUnended line) : CutIntoLines line [line]
  | ended {line ending rest : List Char} {lines : List (List Char)} (unended : IsUnended line)
      (ends : ending = ['\n'] ∨ ending = ['\r', '\n'] ∨
        ending = ['\r'] ∧ rest.head? ≠ some '\n')
      (below : CutIntoLines rest lines) :
      CutIntoLines (line ++ ending ++ rest) ((line ++ ending) :: lines)

theorem CutIntoLines.flatten_eq {text : List Char} {lines : List (List Char)}
    (cut : CutIntoLines text lines) : lines.flatten = text := by
  induction cut with
  | last => simp
  | ended _ _ _ ih => rw [List.flatten_cons, ih]

def linesOf : List Char → List (List Char)
  | [] => [[]]
  | '\r' :: '\n' :: rest => ['\r', '\n'] :: linesOf rest
  | c :: rest =>
      if c = '\n' ∨ c = '\r' then [c] :: linesOf rest
      else (linesOf rest).modifyHead (c :: ·)

theorem cutIntoLines_linesOf (text : List Char) : CutIntoLines text (linesOf text) := by
  have nothing : IsUnended [] := fun _ member => absurd member List.not_mem_nil
  induction text using linesOf.induct with
  | case1 => exact .last nothing
  | case2 rest ih => exact .ended nothing (.inr (.inl rfl)) ih
  | case3 c rest single ends ih =>
      rw [linesOf.eq_3 c rest single, if_pos ends]
      have own : [c] = ['\n'] ∨ [c] = ['\r', '\n'] ∨ [c] = ['\r'] ∧ rest.head? ≠ some '\n' := by
        rcases ends with rfl | rfl
        · exact .inl rfl
        · refine .inr (.inr ⟨rfl, fun paired => ?_⟩)
          rcases List.head?_eq_some_iff.1 paired with ⟨after, shape⟩
          exact single after rfl shape
      exact .ended nothing own ih
  | case4 c rest single ends ih =>
      rw [linesOf.eq_3 c rest single, if_neg ends]
      rw [not_or] at ends
      have longer {line : List Char} (unended : IsUnended line) : IsUnended (c :: line) :=
        List.forall_mem_cons.2 ⟨ends, unended⟩
      generalize linesOf rest = lines at ih
      cases ih with
      | last unended => exact .last (longer unended)
      | ended unended ends' below => exact .ended (longer unended) ends' below

section Scan

theorem lineStartsFrom_append_of_isUnended {line : List Char} (unended : IsUnended line)
    (offset : Nat) (rest : List Char) :
    lineStartsFrom offset (line ++ rest) = lineStartsFrom (offset + byteLength line) rest := by
  induction line generalizing offset with
  | nil => rfl
  | cons c line ih =>
      rcases List.forall_mem_cons.1 unended with ⟨own, others⟩
      have passed : ¬ (decide (c = '\n') || decide (c = '\r') &&
          (line ++ rest).head? != some '\n') = true := by
        simp [own.1, own.2]
      rw [List.cons_append, lineStartsFrom, if_neg passed, ih others, byteLength, Nat.add_assoc]

theorem lineStartsFrom_append_ending {ending rest : List Char}
    (ends : ending = ['\n'] ∨ ending = ['\r', '\n'] ∨ ending = ['\r'] ∧ rest.head? ≠ some '\n')
    (offset : Nat) :
    lineStartsFrom offset (ending ++ rest) =
      (offset + byteLength ending) :: lineStartsFrom (offset + byteLength ending) rest := by
  rcases ends with rfl | rfl | ⟨rfl, alone⟩
  · simp [lineStartsFrom, byteLength]
  · simp [lineStartsFrom, byteLength, Nat.add_assoc]
  · simp [lineStartsFrom, byteLength, alone]

end Scan

def reach (lines : List (List Char)) (count : Nat) : Nat :=
  byteLength (lines.take count).flatten

@[simp] theorem reach_zero (lines : List (List Char)) : reach lines 0 = 0 := rfl

@[simp] theorem reach_cons_succ (line : List Char) (lines : List (List Char)) (count : Nat) :
    reach (line :: lines) (count + 1) = byteLength line + reach lines count := by
  rw [reach, List.take_succ_cons, List.flatten_cons, byteLength_append, reach]

theorem reach_mono (lines : List (List Char)) {few many : Nat} (fewer : few ≤ many) :
    reach lines few ≤ reach lines many := by
  rcases Nat.exists_eq_add_of_le fewer with ⟨more, rfl⟩
  rw [reach, reach, List.take_add, List.flatten_append, byteLength_append]
  exact Nat.le_add_right _ _

theorem reach_of_length_le {lines : List (List Char)} {count : Nat}
    (all : lines.length ≤ count) : reach lines count = byteLength lines.flatten := by
  rw [reach, List.take_of_length_le all]

theorem reach_succ {lines : List (List Char)} {row : Nat} {line : List Char}
    (listed : lines[row]? = some line) :
    reach lines (row + 1) = reach lines row + byteLength line := by
  rw [reach, List.take_add_one, listed, List.flatten_append, byteLength_append, reach]
  simp

/-- The scan of a text tells how far the lines in front of each of its lines reach. -/
theorem CutIntoLines.starts_eq {text : List Char} {lines : List (List Char)}
    (cut : CutIntoLines text lines) (offset : Nat) :
    offset :: lineStartsFrom offset text =
      (List.range lines.length).map fun row => offset + reach lines row := by
  induction cut generalizing offset with
  | @last line unended =>
      have none := lineStartsFrom_append_of_isUnended unended offset []
      rw [List.append_nil, lineStartsFrom] at none
      rw [none]
      rfl
  | @ended line ending rest lines unended ends below ih =>
      rw [List.append_assoc, lineStartsFrom_append_of_isUnended unended,
        lineStartsFrom_append_ending ends, ih, List.length_cons, List.range_succ_eq_map,
        List.map_cons, List.map_map]
      simp [Function.comp_def, Nat.add_assoc]

theorem Ordinal.eq_of_index_eq {left right : Ordinal} (same : left.index = right.index) :
    left = right := by
  have leftPos := left.number_pos
  have rightPos := right.number_pos
  simp only [Ordinal.index] at same
  apply Ordinal.ext
  omega

namespace LineIndex

section Rows

variable {text : String} {line : Ordinal}

theorem starts_eq (text : String) :
    (ofText text).starts =
      (List.range (linesOf text.toList).length).map (reach (linesOf text.toList)) := by
  have scanned := (cutIntoLines_linesOf text.toList).starts_eq 0
  simp only [Nat.zero_add] at scanned
  exact scanned

theorem lineCount_eq (text : String) :
    (ofText text).lineCount = (linesOf text.toList).length := by
  rw [lineCount, starts_eq, List.length_map, List.length_range]

theorem getElem?_starts (text : String) (row : Nat) :
    (ofText text).starts[row]? =
      if row < (ofText text).lineCount then some (reach (linesOf text.toList) row) else none := by
  rw [lineCount_eq, starts_eq, List.getElem?_map]
  split
  · next listed => simp [listed]
  · next beyond => simp [Nat.le_of_not_lt beyond]

theorem reach_lineCount (text : String) {count : Nat} (all : (ofText text).lineCount ≤ count) :
    reach (linesOf text.toList) count = Offset.endOf text := by
  rw [lineCount_eq] at all
  rw [reach_of_length_le all, (cutIntoLines_linesOf text.toList).flatten_eq, endOf_eq]

/-- Behind the last line starts one more, at the end of the text. -/
theorem lineStart_eq_ok_iff {start : Nat} :
    (ofText text).lineStart line text = .ok start ↔
      line.index ≤ (ofText text).lineCount ∧ start = reach (linesOf text.toList) line.index := by
  rw [lineStart, getElem?_starts]
  by_cases behind : line.index = (ofText text).lineCount
  · rw [if_pos behind, reach_lineCount text (Nat.le_of_eq behind.symm), Except.ok.injEq]
    simp [behind, eq_comm]
  · rw [if_neg behind]
    by_cases listed : line.index < (ofText text).lineCount
    · simp [listed, Nat.le_of_lt listed, eq_comm]
    · have beyond : ¬ line.index ≤ (ofText text).lineCount := by omega
      simp [listed, beyond]

theorem lineEnd_eq (text : String) (line : Ordinal) :
    (ofText text).lineEnd line text = reach (linesOf text.toList) (line.index + 1) := by
  rw [lineEnd, getElem?_starts]
  by_cases listed : line.index + 1 < (ofText text).lineCount
  · rw [if_pos listed]
  · rw [if_neg listed, reach_lineCount text (Nat.le_of_not_lt listed)]

theorem lineSpan_eq_ok_iff {span : Span} :
    (ofText text).lineSpan line text = .ok span ↔
      line.index ≤ (ofText text).lineCount ∧ span.start = reach (linesOf text.toList) line.index ∧
        span.stop = reach (linesOf text.toList) (line.index + 1) := by
  have ordered := reach_mono (linesOf text.toList) (Nat.le_succ line.index)
  rw [lineSpan, lineEnd_eq]
  constructor
  · intro found
    rcases exists_of_bind_eq_ok found with ⟨start, started, bounds⟩
    rcases lineStart_eq_ok_iff.1 started with ⟨within, rfl⟩
    rw [Span.ofBounds, dif_pos ordered, Except.ok.injEq] at bounds
    subst bounds
    exact ⟨within, rfl, rfl⟩
  · rintro ⟨within, start, stop⟩
    rw [lineStart_eq_ok_iff.2 ⟨within, rfl⟩]
    simp only [bind, Except.bind, Span.ofBounds, dif_pos ordered, Except.ok.injEq]
    exact (Span.ext start stop).symm

theorem exists_lineSpan (within : line.index ≤ (ofText text).lineCount) :
    ∃ span, (ofText text).lineSpan line text = .ok span :=
  ⟨⟨_, _, reach_mono (linesOf text.toList) (Nat.le_succ line.index)⟩,
    lineSpan_eq_ok_iff.2 ⟨within, rfl, rfl⟩⟩

theorem lineSpan_behind_last (behind : line.number = (ofText text).lineCount + 1) :
    (ofText text).lineSpan line text = .ok (Span.empty (Offset.endOf text)) := by
  have last : line.index = (ofText text).lineCount := by
    rw [Ordinal.index, behind, Nat.add_sub_cancel]
  rw [lineSpan_eq_ok_iff, last, reach_lineCount text (Nat.le_refl _),
    reach_lineCount text (Nat.le_succ _)]
  exact ⟨Nat.le_refl _, rfl, rfl⟩

theorem lineText_eq {piece : List Char}
    (listed : (linesOf text.toList)[line.index]? = some piece) :
    (ofText text).lineText line text = .ok (String.ofList piece) := by
  rcases List.getElem?_eq_some_iff.1 listed with ⟨bound, own⟩
  have within : line.index ≤ (ofText text).lineCount := by
    rw [lineCount_eq]
    exact Nat.le_of_lt bound
  rcases exists_lineSpan within with ⟨span, found⟩
  rcases lineSpan_eq_ok_iff.1 found with ⟨-, start, stop⟩
  have whole : text.toList = ((linesOf text.toList).take line.index).flatten ++ piece ++
      ((linesOf text.toList).drop (line.index + 1)).flatten := by
    rw [← own, List.append_assoc, ← List.flatten_cons, ← List.drop_eq_getElem_cons bound,
      ← List.flatten_append, List.take_append_drop, (cutIntoLines_linesOf text.toList).flatten_eq]
  rw [lineText, found]
  apply Span.text_of_append whole
  · rw [start, reach]
  · rw [start, stop, reach_succ listed]

end Rows

section Offsets

variable {text : String} {offset : Nat}

theorem reach_lineAt (small : offset < Ordinal.largest) (inside : offset < Offset.endOf text) :
    ((ofText text).lineAt offset).index < (ofText text).lineCount ∧
      reach (linesOf text.toList) ((ofText text).lineAt offset).index ≤ offset ∧
      offset < reach (linesOf text.toList) (((ofText text).lineAt offset).index + 1) := by
  rcases exists_start text offset with ⟨start, listed, passed⟩
  have within : ((ofText text).lineAt offset).index < (ofText text).lineCount :=
    (List.getElem?_eq_some_iff.1 listed).1
  have own := listed
  rw [getElem?_starts, if_pos within, Option.some.injEq] at own
  subst own
  refine ⟨within, passed, Nat.lt_of_not_le fun reached => ?_⟩
  by_cases more : ((ofText text).lineAt offset).index + 1 < (ofText text).lineCount
  · -- the next line starts behind this one, so the offset has not passed it
    have next := getElem?_starts text (((ofText text).lineAt offset).index + 1)
    rw [if_pos more] at next
    have latest := le_of_start small listed (List.mem_of_getElem? next) reached
    rcases List.getElem?_eq_some_iff.1 listed with ⟨bound, here⟩
    rcases List.getElem?_eq_some_iff.1 next with ⟨nextBound, there⟩
    have later := List.pairwise_iff_getElem.1 (starts_ascending text) _ _ bound nextBound
      (Nat.lt_succ_self _)
    rw [here, there] at later
    exact Nat.not_le_of_lt later latest
  · rw [reach_lineCount text (Nat.le_of_not_lt more)] at reached
    exact Nat.not_le_of_lt inside reached

/-- Of two lines that hold an offset, neither ends before the other starts. -/
theorem row_unique {lines : List (List Char)} {row other : Nat}
    (start : reach lines row ≤ offset) (stop : offset < reach lines (row + 1))
    (start' : reach lines other ≤ offset) (stop' : offset < reach lines (other + 1)) :
    other = row := by
  rcases Nat.lt_trichotomy other row with before | same | behind
  · have passed : reach lines (other + 1) ≤ reach lines row := reach_mono lines before
    omega
  · exact same
  · have passed : reach lines (row + 1) ≤ reach lines other := reach_mono lines behind
    omega

theorem exists_lineSpan_lineAt (small : offset < Ordinal.largest)
    (inside : offset < Offset.endOf text) :
    ∃ span, (ofText text).lineSpan ((ofText text).lineAt offset) text = .ok span ∧
      span.contains offset := by
  rcases reach_lineAt small inside with ⟨within, passed, ahead⟩
  rcases exists_lineSpan (Nat.le_of_lt within) with ⟨span, found⟩
  rcases lineSpan_eq_ok_iff.1 found with ⟨-, start, stop⟩
  refine ⟨span, found, ?_⟩
  rw [Span.contains, start, stop]
  simp [passed, ahead]

theorem eq_lineAt_of_contains (small : offset < Ordinal.largest)
    (inside : offset < Offset.endOf text) {line : Ordinal} {span : Span}
    (found : (ofText text).lineSpan line text = .ok span) (holds : span.contains offset) :
    line = (ofText text).lineAt offset := by
  rcases reach_lineAt small inside with ⟨-, passed, ahead⟩
  rcases lineSpan_eq_ok_iff.1 found with ⟨-, start, stop⟩
  rw [Span.contains, start, stop] at holds
  simp only [Bool.and_eq_true, decide_eq_true_eq] at holds
  exact Ordinal.eq_of_index_eq (row_unique passed ahead holds.1 holds.2)

end Offsets

/-- No more lines start in a text than it has bytes, but the first. -/
theorem lineCount_le (text : String) : (ofText text).lineCount ≤ Offset.endOf text + 1 := by
  have few : (lineStartsFrom 0 text.toList).length ≤ Offset.endOf text - 0 := by
    apply length_le_of_ascending (lineStartsFrom_ascending 0 text.toList)
    · exact fun _ => lt_of_mem_lineStartsFrom
    · intro start member
      exact (isBoundary_of_mem_starts (List.mem_cons_of_mem _ member)).le_endOf
  rw [lineCount, ofText, List.length_cons]
  omega

theorem mapM_lineText (text : String) (short : Offset.endOf text < Offset.limit) :
    (List.range (ofText text).lineCount).mapM
        (fun row => (ofText text).lineText (.ofIndex row) text) =
      .ok ((linesOf text.toList).map String.ofList) := by
  have few := lineCount_le text
  rw [lineCount_eq] at few ⊢
  rw [mapM_eq_ok_iff, List.forall₂_map_right_iff, List.forall₂_iff_get]
  refine ⟨List.length_range, fun row _ bound => ?_⟩
  have small : row < Ordinal.largest := Ordinal.lt_largest_of_short short (by omega)
  simp only [List.get_eq_getElem, List.getElem_range]
  apply lineText_eq
  rw [Ordinal.index_ofIndex small]
  exact List.getElem?_eq_getElem bound

end LineIndex

/-- The lines of a text, put together again, are the text, and they are cut behind its line ends.
Every line, and the one behind the last, has a span; an offset inside the text lies in the span of
its line and in no other. -/
theorem lines_partition_text {text : String} (short : Offset.endOf text < Offset.limit) :
    ∃ lines : List String,
      (List.range (LineIndex.ofText text).lineCount).mapM
        (fun row => (LineIndex.ofText text).lineText (.ofIndex row) text) = .ok lines ∧
      String.join lines = text ∧ CutIntoLines text.toList (lines.map String.toList) ∧
      (∀ line : Ordinal, line.number ≤ (LineIndex.ofText text).lineCount + 1 →
        ∃ span, (LineIndex.ofText text).lineSpan line text = .ok span ∧
          (line.number = (LineIndex.ofText text).lineCount + 1 →
            span = Span.empty (Offset.endOf text))) ∧
      ∀ offset < Offset.endOf text, ∃ span,
        (LineIndex.ofText text).lineSpan ((LineIndex.ofText text).lineAt offset) text = .ok span ∧
        span.contains offset ∧
        ∀ other span', (LineIndex.ofText text).lineSpan other text = .ok span' →
          span'.contains offset → other = (LineIndex.ofText text).lineAt offset := by
  have cut := cutIntoLines_linesOf text.toList
  have same : ((linesOf text.toList).map String.ofList).map String.toList = linesOf text.toList := by
    simp
  refine ⟨_, LineIndex.mapM_lineText text short, ?_, by rwa [same], ?_, ?_⟩
  · rw [← String.toList_inj, String.toList_join, List.flatMap_def, same, cut.flatten_eq]
  · intro line within
    have listed : line.index ≤ (LineIndex.ofText text).lineCount := Nat.sub_le_of_le_add within
    rcases LineIndex.exists_lineSpan listed with ⟨span, found⟩
    refine ⟨span, found, fun behind => ?_⟩
    rw [LineIndex.lineSpan_behind_last behind, Except.ok.injEq] at found
    exact found.symm
  · intro offset inside
    have small := Ordinal.lt_largest_of_short short (Nat.le_of_lt inside)
    rcases LineIndex.exists_lineSpan_lineAt small inside with ⟨span, found, holds⟩
    exact ⟨span, found, holds,
      fun other span' found' holds' => LineIndex.eq_lineAt_of_contains small inside found' holds'⟩

/-- Lines with each kind of line end, and an empty one behind the last of them. -/
theorem lines_partition_mixedEndings :
    Offset.endOf mixedEndings < Offset.limit ∧
      (List.range (LineIndex.ofText mixedEndings).lineCount).mapM
        (fun row => (LineIndex.ofText mixedEndings).lineText (.ofIndex row) mixedEndings) =
        .ok ["é\r\n", "\r", "ßx\n", ""] ∧
      CutIntoLines mixedEndings.toList
        [['é', '\r', '\n'], ['\r'], ['ß', 'x', '\n'], []] ∧
      (LineIndex.ofText mixedEndings).lineSpan (.ofIndex 4) mixedEndings = .ok (Span.empty 9) ∧
      ∃ span, (LineIndex.ofText mixedEndings).lineSpan (.ofIndex 2) mixedEndings = .ok span ∧
        span.contains 6 ∧
        ∀ other span', (LineIndex.ofText mixedEndings).lineSpan other mixedEndings = .ok span' →
          span'.contains 6 → other = .ofIndex 2 := by
  have short : Offset.endOf mixedEndings < Offset.limit := by decide
  have size : Offset.endOf mixedEndings = 9 := by decide
  have row : (LineIndex.ofText mixedEndings).lineAt 6 = .ofIndex 2 := by decide
  rcases lines_partition_text short with ⟨lines, listed, -, cut, spans, offsets⟩
  have all : (List.range (LineIndex.ofText mixedEndings).lineCount).mapM
      (fun row => (LineIndex.ofText mixedEndings).lineText (.ofIndex row) mixedEndings) =
      .ok ["é\r\n", "\r", "ßx\n", ""] := by decide
  rw [listed, Except.ok.injEq] at all
  subst all
  rcases spans (.ofIndex 4) (by decide) with ⟨behind, found, empty⟩
  rw [empty (by decide), size] at found
  rcases offsets 6 (by decide) with ⟨span, held, holds, only⟩
  rw [row] at held only
  exact ⟨short, listed, cut, found, span, held, holds, only⟩

end NameLint.Source
