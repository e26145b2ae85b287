import NameLint.Proofs.Source.LineIndex

/-!
# Line ends and locations

The starts that the line index holds are zero and the offsets behind the line ends of the text, in
ascending order and each one once. So the starts that do not lie behind an offset are the first ones,
their number is the number of its line, and the last of them is where this line starts.
-/

namespace NameLint.Source

open NameLint.Text

set_option autoImplicit false

/-- A line end stands right before the offset: a carriage return and a line feed, which are one line
end together, or either of them without the other. -/
def EndsLine (text : String) (offset : Nat) : Prop :=
  ∃ before ending after, text.toList = before ++ ending ++ after ∧
    byteLength (before ++ ending) = offset ∧
    (ending = ['\r', '\n'] ∨ ending = ['\n'] ∧ before.getLast? ≠ some '\r' ∨
      ending = ['\r'] ∧ after.head? ≠ some '\n')

section Ends

/-- Behind every line end starts a line, and nowhere else but at the start of the text. -/
theorem mem_lineStartsFrom_iff_endsLine {text : String} {offset : Nat} :
    offset ∈ lineStartsFrom 0 text.toList ↔ EndsLine text offset := by
  rw [mem_lineStartsFrom_iff]
  constructor
  · rintro ⟨before, c, after, shape, same, rfl | ⟨rfl, alone⟩⟩
    · by_cases paired : before.getLast? = some '\r'
      · rcases List.getLast?_eq_some_iff.1 paired with ⟨front, rfl⟩
        refine ⟨front, ['\r', '\n'], after, by simpa using shape, ?_, .inl rfl⟩
        simp only [byteLength_append, byteLength] at same ⊢
        omega
      · refine ⟨before, ['\n'], after, by simpa using shape, ?_, .inr (.inl ⟨rfl, paired⟩)⟩
        simp only [byteLength_append, byteLength] at same ⊢
        omega
    · refine ⟨before, ['\r'], after, by simpa using shape, ?_, .inr (.inr ⟨rfl, alone⟩)⟩
      simp only [byteLength_append, byteLength] at same ⊢
      omega
  · rintro ⟨before, ending, after, shape, same, rfl | ⟨rfl, -⟩ | ⟨rfl, alone⟩⟩
    · refine ⟨before ++ ['\r'], '\n', after, by simpa using shape, ?_, .inl rfl⟩
      simp only [byteLength_append, byteLength] at same ⊢
      omega
    · refine ⟨before, '\n', after, by simpa using shape, ?_, .inl rfl⟩
      simp only [byteLength_append, byteLength] at same ⊢
      omega
    · refine ⟨before, '\r', after, by simpa using shape, ?_, .inr ⟨rfl, alone⟩⟩
      simp only [byteLength_append, byteLength] at same ⊢
      omega

theorem lt_of_mem_lineStartsFrom {offset start : Nat} {text : List Char}
    (member : start ∈ lineStartsFrom offset text) : offset < start := by
  rcases mem_lineStartsFrom_iff.1 member with ⟨before, c, after, -, same, -⟩
  have positive := c.utf8Size_pos
  omega

theorem lineStartsFrom_ascending (offset : Nat) (text : List Char) :
    (lineStartsFrom offset text).Pairwise (· < ·) := by
  induction text generalizing offset with
  | nil => exact List.Pairwise.nil
  | cons c rest ih =>
      simp only [lineStartsFrom]
      split
      · exact List.pairwise_cons.2 ⟨fun _ => lt_of_mem_lineStartsFrom, ih _⟩
      · exact ih _

end Ends

section Ascending

variable {starts : List Nat} (ascending : starts.Pairwise (· < ·))

include ascending

theorem takeWhile_eq_filter_of_ascending (offset : Nat) :
    starts.takeWhile (· ≤ offset) = starts.filter (· ≤ offset) := by
  induction starts with
  | nil => rfl
  | cons start rest ih =>
      rcases List.pairwise_cons.1 ascending with ⟨heads, tails⟩
      by_cases reached : start ≤ offset
      · rw [List.takeWhile_cons_of_pos (by simpa using reached),
          List.filter_cons_of_pos (by simpa using reached), ih tails]
      · have none : rest.filter (· ≤ offset) = [] := by
          rw [List.filter_eq_nil_iff]
          intro other member
          have behind := heads other member
          simp only [decide_eq_true_eq]
          omega
        rw [List.takeWhile_cons_of_neg (by simpa using reached),
          List.filter_cons_of_neg (by simpa using reached), none]

theorem length_le_of_ascending {low high : Nat} (above : ∀ start ∈ starts, low < start)
    (below : ∀ start ∈ starts, start ≤ high) : starts.length ≤ high - low := by
  induction starts generalizing low with
  | nil => exact Nat.zero_le _
  | cons start rest ih =>
      rcases List.pairwise_cons.1 ascending with ⟨heads, tails⟩
      have rests := ih tails heads fun other member => below other (List.mem_cons_of_mem _ member)
      have lower := above start List.mem_cons_self
      have upper := below start List.mem_cons_self
      rw [List.length_cons]
      omega

end Ascending

theorem Ordinal.number_ofIndex {index : Nat} (small : index < Ordinal.largest) :
    (Ordinal.ofIndex index).number = index + 1 := by
  simp only [Ordinal.ofIndex]
  omega

theorem Ordinal.index_ofIndex {index : Nat} (small : index < Ordinal.largest) :
    (Ordinal.ofIndex index).index = index := by
  rw [Ordinal.index, Ordinal.number_ofIndex small, Nat.add_sub_cancel]

theorem Ordinal.lt_largest_of_short {text : String} (short : Offset.endOf text < Offset.limit)
    {offset : Nat} (within : offset ≤ Offset.endOf text) : offset < Ordinal.largest := by
  simp only [Offset.limit, Ordinal.largest] at *
  omega

namespace LineIndex

theorem starts_ascending (text : String) : (ofText text).starts.Pairwise (· < ·) :=
  List.pairwise_cons.2
    ⟨fun _ => lt_of_mem_lineStartsFrom, lineStartsFrom_ascending 0 text.toList⟩

theorem length_takeWhile_starts (text : String) (offset : Nat) :
    ((ofText text).starts.takeWhile (· ≤ offset)).length =
      (lineStartsFrom 0 text.toList).countP (· ≤ offset) + 1 := by
  rw [takeWhile_eq_filter_of_ascending (starts_ascending text), ← List.countP_eq_length_filter,
    ofText, List.countP_cons_of_pos (by simp)]

theorem countP_lineStartsFrom_le (text : String) (offset : Nat) :
    (lineStartsFrom 0 text.toList).countP (· ≤ offset) ≤ offset := by
  rw [List.countP_eq_length_filter]
  show _ ≤ offset - 0
  apply length_le_of_ascending ((lineStartsFrom_ascending 0 text.toList).filter _)
  · intro start member
    exact lt_of_mem_lineStartsFrom (List.mem_filter.1 member).1
  · intro start member
    simpa using (List.mem_filter.1 member).2

theorem number_lineAt (text : String) {offset : Nat} (small : offset < Ordinal.largest) :
    ((ofText text).lineAt offset).number =
      (lineStartsFrom 0 text.toList).countP (· ≤ offset) + 1 := by
  have few := countP_lineStartsFrom_le text offset
  rw [lineAt, length_takeWhile_starts, Nat.add_sub_cancel, Ordinal.number_ofIndex (by omega)]

/-- The line of an offset starts at the last start that is not behind it. -/
theorem le_of_start {text : String} {offset start : Nat} (small : offset < Ordinal.largest)
    (listed : (ofText text).starts[((ofText text).lineAt offset).index]? = some start)
    {other : Nat} (member : other ∈ (ofText text).starts) (passed : other ≤ offset) :
    other ≤ start := by
  have among : other ∈ (ofText text).starts.takeWhile (· ≤ offset) := by
    rw [takeWhile_eq_filter_of_ascending (starts_ascending text), List.mem_filter]
    exact ⟨member, by simpa using passed⟩
  rcases List.getElem_of_mem among with ⟨row, bound, rfl⟩
  have last : row ≤ ((ofText text).lineAt offset).index := by
    rw [Ordinal.index, number_lineAt text small, Nat.add_sub_cancel]
    rw [length_takeWhile_starts] at bound
    omega
  have here := List.prefix_iff_getElem?.1 (List.takeWhile_prefix (· ≤ offset)) row bound
  rcases List.getElem?_eq_some_iff.1 here with ⟨hereBound, here⟩
  rcases List.getElem?_eq_some_iff.1 listed with ⟨listedBound, rfl⟩
  rw [← here]
  rcases Nat.lt_or_eq_of_le last with before | same
  · exact Nat.le_of_lt (List.pairwise_iff_getElem.1 (starts_ascending text) _ _ _ _ before)
  · simp only [same, Nat.le_refl]

/-- What a search for an offset among ascending starts may answer: the row that starts there, or
else the row in front of which the offset belongs. -/
inductive Searched (starts : List Nat) (offset : Nat) : Except Nat Nat → Prop
  | found {row : Nat} (here : starts[row]? = some offset) : Searched starts offset (.ok row)
  | missing {front back : List Nat} (shape : starts = front ++ back)
      (before : ∀ start ∈ front, start < offset) (behind : ∀ start ∈ back, offset < start) :
      Searched starts offset (.error front.length)

/-- The row that holds the offset, by the answer of a search. There is no row before the first. -/
def rowOf : Except Nat Nat → Option Nat
  | .ok row => some row
  | .error 0 => none
  | .error (next + 1) => some next

theorem filter_le_of_split {front back : List Nat} {offset : Nat}
    (passed : ∀ start ∈ front, start ≤ offset) (ahead : ∀ start ∈ back, offset < start) :
    (front ++ back).filter (· ≤ offset) = front := by
  have all : front.filter (· ≤ offset) = front := by
    rw [List.filter_eq_self]
    intro start member
    simpa using passed start member
  have none : back.filter (· ≤ offset) = [] := by
    rw [List.filter_eq_nil_iff]
    intro start member
    simpa using ahead start member
  rw [List.filter_append, all, none, List.append_nil]

theorem rowOf_eq_of_passed {starts : List Nat} {offset count : Nat} {answer : Except Nat Nat}
    (ascending : starts.Pairwise (· < ·)) (searched : Searched starts offset answer)
    (passed : (starts.takeWhile (· ≤ offset)).length = count + 1) : rowOf answer = some count := by
  rw [takeWhile_eq_filter_of_ascending ascending] at passed
  cases searched with
  | @found row here =>
      rcases List.getElem?_eq_some_iff.1 here with ⟨bound, same⟩
      have whole := List.take_append_drop (row + 1) starts
      rw [List.take_succ_eq_append_getElem bound, same] at whole
      rw [← whole, List.pairwise_append] at ascending
      rcases ascending with ⟨fronts, -, crossing⟩
      have reached : ∀ start ∈ starts.take row ++ [offset], start ≤ offset := by
        intro start member
        rcases List.mem_append.1 member with before | here
        · exact Nat.le_of_lt ((List.pairwise_append.1 fronts).2.2 start before offset
            List.mem_cons_self)
        · exact Nat.le_of_eq (List.mem_singleton.1 here)
      have ahead : ∀ start ∈ starts.drop (row + 1), offset < start := fun start member =>
        crossing offset (List.mem_append_right _ List.mem_cons_self) start member
      rw [← whole, filter_le_of_split reached ahead, List.length_append,
        List.length_take_of_le (Nat.le_of_lt bound), List.length_singleton,
        Nat.add_right_cancel_iff] at passed
      rw [rowOf, passed]
  | missing shape before behind =>
      rw [shape, filter_le_of_split (fun start member => Nat.le_of_lt (before start member)) behind]
        at passed
      rw [passed, rowOf]

/-- Any search of the starts leads to the line of the offset. -/
theorem rowOf_eq_of_searched {text : String} {offset : Nat} {answer : Except Nat Nat}
    (small : offset < Ordinal.largest) (searched : Searched (ofText text).starts offset answer) :
    rowOf answer = some ((ofText text).lineAt offset).index := by
  rw [Ordinal.index, number_lineAt text small, Nat.add_sub_cancel]
  exact rowOf_eq_of_passed (starts_ascending text) searched (length_takeWhile_starts text offset)

theorem location_counted {text : String} {offset : Nat} (boundary : IsBoundary text offset) :
    (LineIndex.mk (ofText text).starts false).location offset text =
      (ofText text).location offset text := by
  rcases location_eq boundary with ⟨before, middle, after, shape, reached, listed, located⟩
  have inside : ((ofText text).lineAt offset).index ≠ (ofText text).starts.length :=
    Nat.ne_of_lt (List.getElem?_eq_some_iff.1 listed).1
  have started : (LineIndex.mk (ofText text).starts false).lineStart
      ((ofText text).lineAt offset) text = .ok (byteLength before) := by
    simp only [lineStart, lineCount, if_neg inside, listed]
  have counted := (column_eq shape).2
  rw [reached] at counted
  rw [located, location]
  have same : (LineIndex.mk (ofText text).starts false).lineAt offset = (ofText text).lineAt offset :=
    rfl
  simp only [same, started, bind, Except.bind, Bool.false_eq_true, if_false]
  rw [counted]
  rfl

end LineIndex

/-- For an offset between two characters there is always a location. Its line counts the line ends
up to the offset, and its column the characters from the last of them, whichever way the columns of
the text are computed. The starts ascend, so that any search finds this line. -/
theorem location_counts_line_ends {text : String} (short : Offset.endOf text < Offset.limit)
    {offset : Nat} (boundary : IsBoundary text offset) :
    ∃ ends location before line after,
      (LineIndex.ofText text).starts = 0 :: ends ∧ ends.Pairwise (· < ·) ∧
      (∀ stop, stop ∈ ends ↔ EndsLine text stop) ∧
      (LineIndex.ofText text).location offset text = .ok location ∧
      (LineIndex.mk (LineIndex.ofText text).starts false).location offset text = .ok location ∧
      location.line.number = 1 + ends.countP (· ≤ offset) ∧
      text.toList = before ++ line ++ after ∧ byteLength (before ++ line) = offset ∧
      (before = [] ∨ EndsLine text (byteLength before)) ∧
      (∀ stop, EndsLine text stop → stop ≤ offset → stop ≤ byteLength before) ∧
      location.column.number = 1 + line.length ∧
      ∀ answer, LineIndex.Searched (LineIndex.ofText text).starts offset answer →
        LineIndex.rowOf answer = some location.line.index := by
  have small : offset < Ordinal.largest := by
    have within := boundary.le_endOf
    simp only [Offset.limit, Ordinal.largest] at *
    omega
  rcases LineIndex.location_eq boundary with
    ⟨before, line, after, shape, reached, listed, located⟩
  refine ⟨lineStartsFrom 0 text.toList, _, before, line, after, rfl,
    lineStartsFrom_ascending 0 text.toList, fun stop => mem_lineStartsFrom_iff_endsLine, located,
    (LineIndex.location_counted boundary).trans located, ?_, shape, reached, ?_, ?_, ?_, ?_⟩
  · rw [LineIndex.number_lineAt text small, Nat.add_comm]
  · rcases List.mem_cons.1 (List.mem_of_getElem? listed) with first | later
    · exact .inl (byteLength_eq_zero.1 first)
    · exact .inr (mem_lineStartsFrom_iff_endsLine.1 later)
  · intro stop ends passed
    exact LineIndex.le_of_start small listed
      (List.mem_cons_of_mem _ (mem_lineStartsFrom_iff_endsLine.2 ends)) passed
  · have few := length_le_byteLength line
    rw [byteLength_append] at reached
    rw [Ordinal.number_ofIndex (by omega), Nat.add_comm]
  · exact fun answer searched => LineIndex.rowOf_eq_of_searched small searched

/-- Each kind of line end, between characters of two bytes. -/
def mixedEndings : String := "é\r\n\rßx\n"

/-- Two lines end before the offset, and two characters of its own line. -/
theorem location_counts_line_ends_mixedEndings :
    Offset.endOf mixedEndings < Offset.limit ∧ IsBoundary mixedEndings 8 ∧
      ∃ ends location before line after,
        (LineIndex.ofText mixedEndings).starts = 0 :: ends ∧ ends = [4, 5, 9] ∧
        (∀ stop, stop ∈ ends ↔ EndsLine mixedEndings stop) ∧
        (LineIndex.ofText mixedEndings).location 8 mixedEndings = .ok location ∧
        location.line.number = 1 + ends.countP (· ≤ 8) ∧ location.line.number = 3 ∧
        mixedEndings.toList = before ++ line ++ after ∧ byteLength (before ++ line) = 8 ∧
        (before = [] ∨ EndsLine mixedEndings (byteLength before)) ∧
        location.column.number = 1 + line.length ∧ location.column.number = 3 := by
  have short : Offset.endOf mixedEndings < Offset.limit := by decide
  have boundary : IsBoundary mixedEndings 8 := by decide
  rcases location_counts_line_ends short boundary with
    ⟨ends, location, before, line, after, starts, -, marks, located, -, number, shape, reached,
      first, -, column, -⟩
  have listed : ends = [4, 5, 9] := by
    have all : (LineIndex.ofText mixedEndings).starts = [0, 4, 5, 9] := by decide
    rw [all] at starts
    exact (List.cons.inj starts).2.symm
  have place : (LineIndex.ofText mixedEndings).location 8 mixedEndings =
      .ok ⟨.ofIndex 2, .ofIndex 2⟩ := by decide
  rw [place, Except.ok.injEq] at located
  subst located
  exact ⟨short, boundary, ends, _, before, line, after, starts, listed, marks, place, number, rfl,
    shape, reached, first, column, rfl⟩

end NameLint.Source
