import Mathlib.Data.List.DropRight
import PanelExport.Text.Wording

/-!
# Places and their lines and columns

A line and a column say where a place in a text is: whoever goes there, past the lines before it and
then along the line, comes to the place again. Another place of the text has another line or column,
and the places stand in the order of their lines, and on one line in that of their columns.

* `lineColumn_line`, `lineColumn_column`: the numbers, as counts of characters.
* `exists_splitAt`: a place has whole lines in front of it, and the front of its own line.
* `lineColumn_isIn`, `offset_lineColumn`: the place that a line and a column lead to.
* `lineColumn_before_iff`, `lineColumn_injOn`: the order of places.
-/

namespace PanelExport

variable {cs : List Char} {pos : Nat}

/-! ## Counts -/

/-- Every newline starts a line. -/
theorem foldl_step_line (cs : List Char) (p : LineColumn) :
    (cs.foldl LineColumn.step p).line = p.line + cs.count '\n' := by
  induction cs generalizing p with
  | nil => rfl
  | cons c cs ih =>
    rw [List.foldl_cons, ih, LineColumn.step]
    by_cases hc : c = '\n'
    · rw [if_pos hc, hc, List.count_cons_self]
      dsimp only
      omega
    · rw [if_neg hc, List.count_cons_of_ne hc]

theorem lineColumn_line (cs : List Char) (pos : Nat) :
    (lineColumn cs pos).line = 1 + (cs.take pos).count '\n' :=
  foldl_step_line _ _

/-- Only the characters behind the last newline count for the column. -/
theorem lineColumn_column (cs : List Char) (pos : Nat) :
    (lineColumn cs pos).column = 1 + ((cs.take pos).rtakeWhile (· ≠ '\n')).length := by
  unfold lineColumn
  generalize cs.take pos = front
  induction front using List.reverseRecOn with
  | nil => rfl
  | append_singleton front c ih =>
    rw [List.foldl_append, List.foldl_cons, List.foldl_nil, LineColumn.step]
    by_cases hc : c = '\n'
    · rw [if_pos hc, List.rtakeWhile_concat_neg _ _ _ (by simp [hc])]
      rfl
    · rw [if_neg hc, List.rtakeWhile_concat_pos _ _ _ (by simp [hc]), List.length_append, ih]
      rfl

/-! ## Lines -/

/-- The lines of a text, without their newlines. -/
def linesOf (cs : List Char) : List (List Char) :=
  cs.splitOn '\n'

/-- Lines with their newlines, one after the other. -/
def closedLines (lines : List (List Char)) : List Char :=
  lines.flatMap (· ++ ['\n'])

theorem linesOf_newline (cs : List Char) : linesOf ('\n' :: cs) = [] :: linesOf cs := by
  rw [linesOf, List.splitOn, List.splitOnP_cons_eq_if_modifyHead, if_pos (by simp)]
  rfl

theorem linesOf_cons {c : Char} (hc : c ≠ '\n') (cs : List Char) :
    linesOf (c :: cs) = (linesOf cs).modifyHead (c :: ·) := by
  rw [linesOf, List.splitOn, List.splitOnP_cons_eq_if_modifyHead, if_neg (by simpa using hc)]
  rfl

theorem exists_linesOf (cs : List Char) : ∃ line after, linesOf cs = line :: after :=
  List.exists_cons_of_ne_nil (List.splitOn_ne_nil _ _)

theorem newline_notMem_of_mem_linesOf {line : List Char} (h : line ∈ linesOf cs) :
    '\n' ∉ line := by
  induction cs generalizing line with
  | nil =>
    obtain rfl := List.mem_singleton.1 h
    exact List.not_mem_nil
  | cons c cs ih =>
    by_cases hc : c = '\n'
    · rw [hc, linesOf_newline] at h
      rcases List.mem_cons.1 h with rfl | h
      · exact List.not_mem_nil
      · exact ih h
    · obtain ⟨first, after, hlines⟩ := exists_linesOf cs
      rw [linesOf_cons hc, hlines, List.modifyHead_cons] at h
      rcases List.mem_cons.1 h with rfl | h
      · have hfirst := ih (hlines ▸ List.mem_cons_self)
        simp [hfirst, Ne.symm hc]
      · exact ih (hlines ▸ List.mem_cons_of_mem _ h)

/-- In front of a place there are whole lines, and the front of the line that the place is on. -/
structure SplitAt (cs : List Char) (pos : Nat) (before : List (List Char)) (line : List Char)
    (k : Nat) : Prop where
  lines : ∃ after, linesOf cs = before ++ line :: after
  inLine : k ≤ line.length
  front : cs.take pos = closedLines before ++ line.take k

theorem exists_splitAt (h : pos ≤ cs.length) : ∃ before line k, SplitAt cs pos before line k := by
  induction cs generalizing pos with
  | nil => exact ⟨[], [], 0, ⟨[], rfl⟩, Nat.le_refl _, List.take_nil⟩
  | cons c cs ih =>
    cases pos with
    | zero =>
      obtain ⟨line, after, hlines⟩ := exists_linesOf (c :: cs)
      exact ⟨[], line, 0, ⟨after, hlines⟩, Nat.zero_le _, rfl⟩
    | succ pos =>
      obtain ⟨before, line, k, ⟨after, hlines⟩, hk, hfront⟩ := ih (Nat.le_of_succ_le_succ h)
      by_cases hc : c = '\n'
      · refine ⟨[] :: before, line, k, ⟨after, ?_⟩, hk, ?_⟩
        · rw [hc, linesOf_newline, hlines, List.cons_append]
        · rw [List.take_succ_cons, hfront, hc]
          rfl
      · cases before with
        | nil =>
          refine ⟨[], c :: line, k + 1, ⟨after, ?_⟩, Nat.succ_le_succ hk, ?_⟩
          · rw [linesOf_cons hc, hlines]
            rfl
          · rw [List.take_succ_cons, hfront]
            rfl
        | cons first before =>
          refine ⟨(c :: first) :: before, line, k, ⟨after, ?_⟩, hk, ?_⟩
          · rw [linesOf_cons hc, hlines]
            rfl
          · rw [List.take_succ_cons, hfront]
            rfl

theorem foldl_step_plain {line : List Char} (h : '\n' ∉ line) (p : LineColumn) :
    line.foldl LineColumn.step p = ⟨p.line, p.column + line.length⟩ := by
  induction line generalizing p with
  | nil => rfl
  | cons c line ih =>
    rw [List.mem_cons, not_or] at h
    obtain ⟨hc, hline⟩ := h
    rw [List.foldl_cons, ih hline, LineColumn.step, if_neg (Ne.symm hc), List.length_cons]
    simp only [LineColumn.mk.injEq, true_and]
    omega

theorem foldl_step_closedLines {lines : List (List Char)} (h : ∀ line ∈ lines, '\n' ∉ line)
    (p : LineColumn) (hp : p.column = 1) :
    (closedLines lines).foldl LineColumn.step p = ⟨p.line + lines.length, 1⟩ := by
  induction lines generalizing p with
  | nil =>
    rw [← hp]
    rfl
  | cons line lines ih =>
    obtain ⟨hline, hlines⟩ := List.forall_mem_cons.1 h
    rw [closedLines, List.flatMap_cons, List.foldl_append, List.foldl_append, List.foldl_cons,
      List.foldl_nil, foldl_step_plain hline, LineColumn.step, if_pos rfl]
    rw [← closedLines, ih hlines _ rfl, List.length_cons]
    simp only [LineColumn.mk.injEq, and_true]
    omega

/-- The line and the column count the lines and the characters in front of a place. -/
theorem SplitAt.lineColumn_eq {before : List (List Char)} {line : List Char} {k : Nat}
    (h : SplitAt cs pos before line k) : lineColumn cs pos = ⟨1 + before.length, 1 + k⟩ := by
  obtain ⟨after, hlines⟩ := h.lines
  have hplain : ∀ l ∈ before ++ line :: after, '\n' ∉ l := fun l hl =>
    newline_notMem_of_mem_linesOf (hlines ▸ hl)
  obtain ⟨hbefore, hafter⟩ := List.forall_mem_append.1 hplain
  have hfront : '\n' ∉ line.take k := fun hmem =>
    hafter line List.mem_cons_self (List.mem_of_mem_take hmem)
  rw [lineColumn, h.front, List.foldl_append, foldl_step_closedLines hbefore _ rfl,
    foldl_step_plain hfront, List.length_take_of_le h.inLine]

/-! ## The way back -/

namespace LineColumn

/-- A text has a line of this number, and along it a place of this column, the last one being behind
all characters of the line. -/
structure IsIn (p : LineColumn) (cs : List Char) : Prop where
  line_pos : 1 ≤ p.line
  column_pos : 1 ≤ p.column
  column_le : ∃ line, (linesOf cs)[p.line - 1]? = some line ∧ p.column ≤ line.length + 1

/-- How many characters one passes on the way to a line and a column: the lines before it with their
newlines, and then the line itself up to the column. -/
def offset (p : LineColumn) (cs : List Char) : Nat :=
  (closedLines ((linesOf cs).take (p.line - 1))).length + (p.column - 1)

/-- A place on an earlier line, or in an earlier column of the same line. -/
def Before (p q : LineColumn) : Prop :=
  p.line < q.line ∨ p.line = q.line ∧ p.column < q.column

theorem before_step (p : LineColumn) (c : Char) : p.Before (p.step c) := by
  unfold Before step
  split
  · exact .inl (Nat.lt_succ_self _)
  · exact .inr ⟨rfl, Nat.lt_succ_self _⟩

theorem Before.trans {p q r : LineColumn} (h : p.Before q) (h' : q.Before r) : p.Before r := by
  unfold Before at *
  omega

theorem Before.irrefl (p : LineColumn) : ¬ p.Before p := by
  unfold Before
  omega

end LineColumn

/-- The line and the column of a place are in the text. -/
theorem lineColumn_isIn (h : pos ≤ cs.length) : (lineColumn cs pos).IsIn cs := by
  obtain ⟨before, line, k, hsplit⟩ := exists_splitAt h
  obtain ⟨after, hlines⟩ := hsplit.lines
  rw [hsplit.lineColumn_eq]
  refine ⟨Nat.le_add_right _ _, Nat.le_add_right _ _, line, ?_, ?_⟩
  · rw [hlines, Nat.add_sub_cancel_left, List.getElem?_append_right (Nat.le_refl _), Nat.sub_self]
    rfl
  · have := hsplit.inLine
    dsimp only
    omega

/-- The line and the column of a place lead to that place. -/
theorem offset_lineColumn (h : pos ≤ cs.length) : (lineColumn cs pos).offset cs = pos := by
  obtain ⟨before, line, k, hsplit⟩ := exists_splitAt h
  obtain ⟨after, hlines⟩ := hsplit.lines
  have hlength := congrArg List.length hsplit.front
  rw [List.length_take_of_le h, List.length_append, List.length_take_of_le hsplit.inLine] at hlength
  rw [hsplit.lineColumn_eq, LineColumn.offset, hlines, Nat.add_sub_cancel_left,
    Nat.add_sub_cancel_left, List.take_left, hlength]

theorem lineColumn_injOn {p q : Nat} (hp : p ≤ cs.length) (hq : q ≤ cs.length)
    (h : lineColumn cs p = lineColumn cs q) : p = q := by
  rw [← offset_lineColumn hp, h, offset_lineColumn hq]

theorem lineColumn_before_of_lt {p q : Nat} (h : p < q) (hq : q ≤ cs.length) :
    (lineColumn cs p).Before (lineColumn cs q) := by
  induction h with
  | refl =>
    rw [lineColumn_step hq]
    exact LineColumn.before_step _ _
  | @step q _ ih =>
    rw [lineColumn_step hq]
    exact (ih (Nat.le_of_succ_le hq)).trans (LineColumn.before_step _ _)

/-- Places stand in the order of their lines and columns. -/
theorem lineColumn_before_iff {p q : Nat} (hp : p ≤ cs.length) (hq : q ≤ cs.length) :
    (lineColumn cs p).Before (lineColumn cs q) ↔ p < q := by
  refine ⟨fun h => ?_, fun h => lineColumn_before_of_lt h hq⟩
  by_contra hle
  rcases Nat.eq_or_lt_of_le (Nat.le_of_not_lt hle) with heq | hlt
  · rw [heq] at h
    exact LineColumn.Before.irrefl _ h
  · exact LineColumn.Before.irrefl _ (h.trans (lineColumn_before_of_lt hlt hp))

end PanelExport
