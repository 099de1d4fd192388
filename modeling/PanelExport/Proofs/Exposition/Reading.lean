import Mathlib.Data.List.TakeWhile
import PanelExport.Exposition.Convert
import PanelExport.Proofs.Document.PageMarks
import PanelExport.Proofs.Double.Text
import PanelExport.Proofs.Text.Position

/-!
# Reading exposition lines back

The texts of labels stand in a line as they are, between quotes. If none of them has a quote or a
newline in it, whatever else it has, a line can be read from left to right: every part of it ends at
a mark that the part itself cannot hold. So a text says of every sample what was written of it.

* `readLabels?_labels`: labels are read back.
* `Sample.IsPlain.readLine?_line`: a line is read back.
* `QueryResult.text_readsBack`: a text is read back, line by line.
-/

namespace PanelExport

/-! ## The reader -/

/-- What a line says of a sample. -/
structure LineContent where
  metric : String
  labels : List (String × String)
  value : String
  time : String
  deriving DecidableEq

/-- What stands behind a mark. -/
def readMark? (mark : Char) : List Char → Option (List Char)
  | [] => none
  | c :: cs => if c = mark then some cs else none

/-- What stands in front of the next mark, and what stands behind it. -/
def readTo? (mark : Char) (cs : List Char) : Option (List Char × List Char) :=
  (readMark? mark (cs.dropWhile (· != mark))).map fun rest => (cs.takeWhile (· != mark), rest)

/-- A label: its name, and its value up to the next quote. -/
def readLabel? (cs : List Char) : Option ((String × String) × List Char) := do
  let (name, cs) ← readTo? '=' cs
  let cs ← readMark? '"' cs
  let (value, cs) ← readTo? '"' cs
  return ((String.ofList name, String.ofList value), cs)

theorem length_of_readMark? {mark : Char} {cs rest : List Char}
    (h : readMark? mark cs = some rest) : rest.length < cs.length := by
  cases cs with
  | nil => cases h
  | cons c cs =>
    obtain ⟨-, hrest⟩ := Option.ite_none_right_eq_some.1 h
    cases hrest
    exact Nat.lt_succ_self _

theorem length_of_readTo? {mark : Char} {cs front rest : List Char}
    (h : readTo? mark cs = some (front, rest)) : rest.length < cs.length := by
  obtain ⟨rest', hrest, heq⟩ := Option.map_eq_some_iff.1 h
  obtain ⟨-, rfl⟩ := Prod.mk.inj heq
  exact (length_of_readMark? hrest).trans_le (List.dropWhile_suffix _).length_le

theorem length_of_readLabel? {cs rest : List Char} {label : String × String}
    (h : readLabel? cs = some (label, rest)) : rest.length < cs.length := by
  obtain ⟨⟨name, afterName⟩, hname, h⟩ := Option.bind_eq_some_iff.1 h
  obtain ⟨afterQuote, hquote, h⟩ := Option.bind_eq_some_iff.1 h
  obtain ⟨⟨value, afterValue⟩, hvalue, h⟩ := Option.bind_eq_some_iff.1 h
  cases h
  exact (length_of_readTo? hvalue).trans
    ((length_of_readMark? hquote).trans (length_of_readTo? hname))

/-- The labels behind an opening brace, up to the closing one. -/
def readLabels? (cs : List Char) : Option (List (String × String) × List Char) :=
  match _h : readLabel? cs with
  | none => none
  | some (label, rest) =>
    match rest with
    | ',' :: rest => (readLabels? rest).map fun (labels, rest) => (label :: labels, rest)
    | '\x7d' :: rest => some ([label], rest)
    | _ => none
termination_by cs.length
decreasing_by exact Nat.lt_of_succ_lt (length_of_readLabel? _h)

theorem readLabels?_comma {cs rest : List Char} {label : String × String}
    (h : readLabel? cs = some (label, ',' :: rest)) :
    readLabels? cs = (readLabels? rest).map fun (labels, rest) => (label :: labels, rest) := by
  rw [readLabels?]
  split
  · rename_i hnone
    rw [h] at hnone
    cases hnone
  · rename_i hsome
    rw [h] at hsome
    cases hsome
    rfl

theorem readLabels?_brace {cs rest : List Char} {label : String × String}
    (h : readLabel? cs = some (label, '\x7d' :: rest)) :
    readLabels? cs = some ([label], rest) := by
  rw [readLabels?]
  split
  · rename_i hnone
    rw [h] at hnone
    cases hnone
  · rename_i hsome
    rw [h] at hsome
    cases hsome
    rfl

/-- The labels of a line, if it has a brace next. -/
def readBraces? (cs : List Char) : Option (List (String × String) × List Char) :=
  match readMark? '\x7b' cs with
  | some cs => readLabels? cs
  | none => some ([], cs)

/-- Where the name of a metric ends. -/
def endsMetric (c : Char) : Bool :=
  c == '\x7b' || c == ' '

/-- A line: the metric, perhaps labels, and behind a blank each the value and the time. -/
def readLine? (line : List Char) : Option LineContent := do
  let metric := line.takeWhile (!endsMetric ·)
  let (labels, cs) ← readBraces? (line.dropWhile (!endsMetric ·))
  let cs ← readMark? ' ' cs
  let (value, time) ← readTo? ' ' cs
  return ⟨String.ofList metric, labels, String.ofList value, String.ofList time⟩

/-- The lines of a text, each read on its own. The empty text has none. -/
def readText? (text : String) : Option (List LineContent) :=
  if text = "" then some [] else (linesOf text.toList).mapM readLine?

/-! ## Marks -/

theorem readMark?_self (mark : Char) (cs : List Char) : readMark? mark (mark :: cs) = some cs :=
  if_pos rfl

/-- A part without the mark is read up to the mark. -/
theorem readTo?_append {mark : Char} {front : List Char} (h : mark ∉ front) (rest : List Char) :
    readTo? mark (front ++ mark :: rest) = some (front, rest) := by
  have hfront : ∀ c ∈ front, (c != mark) = true := fun c hc => by
    rw [bne_iff_ne]
    rintro rfl
    exact h hc
  rw [readTo?, List.dropWhile_append_of_pos hfront, List.takeWhile_append_of_pos hfront,
    List.dropWhile_cons_of_neg (by simp), List.takeWhile_cons_of_neg (by simp), readMark?_self,
    List.append_nil]
  rfl

/-! ## Labels -/

/-- A label as it is written. -/
def labelText (label : String × String) : String :=
  label.1 ++ "=\"" ++ label.2 ++ "\""

/-- The name of a label ends at the equals sign behind it, and the value at the quote. -/
structure IsReadableLabel (label : String × String) : Prop where
  name : '=' ∉ label.1.toList
  value : '"' ∉ label.2.toList

/-- A label is read as it is written. -/
theorem readLabel?_label {label : String × String} (h : IsReadableLabel label) (rest : List Char) :
    readLabel? ((labelText label).toList ++ rest) = some (label, rest) := by
  have htext : (labelText label).toList ++ rest =
      label.1.toList ++ '=' :: '"' :: (label.2.toList ++ '"' :: rest) := by
    simp [labelText]
  rw [htext, readLabel?, readTo?_append h.name]
  simp only [Option.bind_eq_bind, Option.bind_some, readMark?_self, readTo?_append h.value,
    String.ofList_toList]
  rfl

/-- Labels with commas between them are read up to the closing brace. -/
theorem readLabels?_labels {labels : List (String × String)} (hne : labels ≠ [])
    (h : ∀ label ∈ labels, IsReadableLabel label) (rest : List Char) :
    readLabels? ((",".intercalate (labels.map labelText)).toList ++ '\x7d' :: rest) =
      some (labels, rest) := by
  induction labels with
  | nil => exact absurd rfl hne
  | cons label labels ih =>
    obtain ⟨hlabel, hlabels⟩ := List.forall_mem_cons.1 h
    cases labels with
    | nil =>
      rw [List.map_singleton, String.intercalate_singleton,
        readLabels?_brace (readLabel?_label hlabel _)]
    | cons next labels =>
      have htext : (",".intercalate ((label :: next :: labels).map labelText)).toList ++
          '\x7d' :: rest = (labelText label).toList ++ ',' ::
            ((",".intercalate ((next :: labels).map labelText)).toList ++ '\x7d' :: rest) := by
        simp [String.intercalate_cons_cons]
      rw [htext, readLabels?_comma (readLabel?_label hlabel _), ih (List.cons_ne_nil _ _) hlabels]
      rfl

/-! ## Numbers -/

/-- Nothing in a text ends a value, a time or a line. -/
def IsTight (text : String) : Prop :=
  ∀ c ∈ text.toList, c ≠ ' ' ∧ c ≠ '\n'

theorem isTight_of_all {text : String}
    (h : ∀ c ∈ text.toList, c.isAlphanum = true ∨ c ∈ ['.', '+', '-']) : IsTight text := by
  refine fun c hc => ⟨?_, ?_⟩
  all_goals
    rintro rfl
    exact absurd (h _ hc) (by decide)

/-- A whole number has no blank and no newline in it. -/
theorem isTight_toString (n : Int) : IsTight (toString n) := by
  refine isTight_of_all fun c hc => ?_
  rcases eq_minus_or_isDigit_of_mem_toString hc with rfl | hdigit
  · exact .inr (by decide)
  · exact .inl (isAlphanum_of_isDigit hdigit)

/-- Nor has a double. -/
theorem isTight_text (x : Double) : IsTight x.text :=
  isTight_of_all fun _ => Double.mem_text

/-- A number, with or without a fraction. -/
def Document.IsNumeric (d : Document) : Prop :=
  (∃ n, d = .int n) ∨ ∃ x, d = .float x

/-- Nor has a time that is written. -/
theorem isTight_formatTime {d : Document} (h : d.IsNumeric) : IsTight (formatTime d) := by
  rcases h with ⟨n, rfl⟩ | ⟨x, rfl⟩
  · exact isTight_toString n
  · cases hx : x.toInt? with
    | some n => simpa only [formatTime, hx] using isTight_toString n
    | none => simpa only [formatTime, hx] using isTight_text x

/-- Nor has a value that is written. -/
theorem isTight_formatValue {d : Document} (h : d = .null ∨ d.IsNumeric) :
    IsTight (formatValue d) := by
  have hword : ∀ {text : String}, text.toList.all (fun c => c.isAlphanum || c == '+' || c == '-') =
      true → IsTight text := fun hall => isTight_of_all fun c hc => by
    have hchar := List.all_eq_true.1 hall c hc
    simp only [Bool.or_eq_true, beq_iff_eq, or_assoc] at hchar
    exact hchar.imp id fun hsign => by simp [hsign]
  rcases h with rfl | ⟨n, rfl⟩ | ⟨x, rfl⟩
  · exact hword (by decide)
  · exact isTight_toString n
  · cases x with
    | nan => exact hword (by decide)
    | infinite s => cases s <;> exact hword (by decide)
    | finite s m e fits => exact isTight_formatTime (.inr ⟨_, rfl⟩)

/-! ## Samples -/

/-- A word of ASCII letters, digits and some other characters, which starts with no digit. -/
structure IsIdentifier (others : List Char) (word : String) : Prop where
  start : ∃ c ∈ word.toList.head?, c.isAlpha = true ∨ c ∈ others
  chars : ∀ c ∈ word.toList, c.isAlphanum = true ∨ c ∈ others

/-- A word that passes the checks of a name is a name. -/
theorem isIdentifier_of_checks {others : List Char} {word : String}
    (hstart : word.toList.head?.any (fun c => c.isAlpha || others.contains c) = true)
    (hchars : word.toList.all (fun c => c.isAlphanum || others.contains c) = true) :
    IsIdentifier others word where
  start := by
    obtain ⟨c, hc, hstart⟩ := (Option.any_eq_true _ _).1 hstart
    exact ⟨c, hc, by simpa using hstart⟩
  chars c hc := by simpa using List.all_eq_true.1 hchars c hc

/-- A sample of a result. -/
structure Sample where
  metric : String
  labels : Fields
  value : Document
  time : Document

namespace Sample

/-- The line of a sample. -/
def line (s : Sample) : String :=
  formatLine s.metric s.labels s.value s.time

/-- The labels of a sample as texts. -/
def labelTexts (s : Sample) : List (String × String) :=
  s.labels.map fun (name, value) => (name, value.shown)

/-- What was written of a sample. -/
def content (s : Sample) : LineContent :=
  ⟨s.metric, s.labelTexts, formatValue s.value, formatTime s.time⟩

/-- Metric and labels are named as the format wants it, the values of the labels are texts without
quotes and newlines, and the value is a number, if there is one, at a time that is a number. -/
structure IsPlain (s : Sample) : Prop where
  metric : IsIdentifier ['_', ':'] s.metric
  names : ∀ label ∈ s.labels, IsIdentifier ['_'] label.1
  values : ∀ label ∈ s.labels, ∃ text, label.2 = .text text ∧ '"' ∉ text.toList ∧ '\n' ∉ text.toList
  value : s.value = .null ∨ s.value.IsNumeric
  time : s.time.IsNumeric

variable {s : Sample}

/-- A line is the metric, the labels, the value and the time, with blanks in front of the last two.
-/
theorem toList_line (s : Sample) : s.line.toList = s.metric.toList ++
    ((formatLabels s.labels).toList ++
      ' ' :: ((formatValue s.value).toList ++ ' ' :: (formatTime s.time).toList)) := by
  simp [line, formatLine]

theorem toList_formatLabels (h : s.labels ≠ []) : (formatLabels s.labels).toList =
    '\x7b' :: ((",".intercalate (s.labelTexts.map labelText)).toList ++ ['\x7d']) := by
  rw [formatLabels, if_neg (by simpa using h), String.toList_append, String.toList_append,
    labelTexts, List.map_map]
  rfl

/-- Behind the metric there is a brace or a blank. -/
theorem exists_behind_metric (s : Sample) (cs : List Char) :
    ∃ c rest, (formatLabels s.labels).toList ++ ' ' :: cs = c :: rest ∧ endsMetric c = true := by
  by_cases h : s.labels = []
  · rw [h]
    exact ⟨' ', cs, rfl, by decide⟩
  · rw [toList_formatLabels h]
    exact ⟨'\x7b', _, rfl, by decide⟩

namespace IsPlain

variable (h : s.IsPlain)

include h

theorem readable {label : String × String} (hlabel : label ∈ s.labelTexts) :
    IsReadableLabel label := by
  obtain ⟨field, hfield, rfl⟩ := List.mem_map.1 hlabel
  obtain ⟨text, htext, hquote, -⟩ := h.values field hfield
  refine ⟨fun hequals => ?_, ?_⟩
  · exact absurd ((h.names field hfield).chars _ hequals) (by decide)
  · change '"' ∉ field.2.shown.toList
    rwa [htext]

/-- No label breaks the line. -/
theorem newline_notMem_labelText {label : String × String} (hlabel : label ∈ s.labelTexts) :
    '\n' ∉ (labelText label).toList := by
  obtain ⟨field, hfield, rfl⟩ := List.mem_map.1 hlabel
  obtain ⟨text, htext, -, hnewline⟩ := h.values field hfield
  have hname : '\n' ∉ field.1.toList := fun hmem =>
    absurd ((h.names field hfield).chars _ hmem) (by decide)
  have hvalue : '\n' ∉ field.2.shown.toList := by rwa [htext]
  simp [labelText, hname, hvalue]

/-- Labels are read back, with the blank behind them next. -/
theorem readBraces?_formatLabels (rest : List Char) :
    readBraces? ((formatLabels s.labels).toList ++ ' ' :: rest) =
      some (s.labelTexts, ' ' :: rest) := by
  by_cases hlabels : s.labels = []
  · rw [labelTexts, hlabels]
    rfl
  · rw [toList_formatLabels hlabels, List.cons_append, readBraces?, readMark?_self]
    have hne : s.labelTexts ≠ [] := by simpa [labelTexts] using hlabels
    simp only [List.append_assoc, List.singleton_append]
    exact readLabels?_labels hne (fun _ => h.readable) _

/-- The name of the metric ends at the brace or the blank behind it. -/
theorem not_endsMetric {c : Char} (hc : c ∈ s.metric.toList) : (!endsMetric c) = true := by
  have hchar := h.metric.chars c hc
  simp only [endsMetric, Bool.not_eq_true', Bool.or_eq_false_iff, beq_eq_false_iff_ne]
  refine ⟨?_, ?_⟩
  all_goals
    rintro rfl
    exact absurd hchar (by decide)

/-- The line of a sample is read as what was written of it. -/
theorem readLine?_line : readLine? s.line.toList = some s.content := by
  obtain ⟨c, cs, hbehind, hends⟩ := exists_behind_metric s
    ((formatValue s.value).toList ++ ' ' :: (formatTime s.time).toList)
  have hvalue : ' ' ∉ (formatValue s.value).toList := fun hmem =>
    (isTight_formatValue h.value ' ' hmem).1 rfl
  have hfront : s.line.toList.takeWhile (!endsMetric ·) = s.metric.toList := by
    rw [toList_line, List.takeWhile_append_of_pos fun _ => h.not_endsMetric, hbehind,
      List.takeWhile_cons_of_neg (by simp [hends]), List.append_nil]
  have hrest : s.line.toList.dropWhile (!endsMetric ·) = (formatLabels s.labels).toList ++
      ' ' :: ((formatValue s.value).toList ++ ' ' :: (formatTime s.time).toList) := by
    rw [toList_line, List.dropWhile_append_of_pos fun _ => h.not_endsMetric, hbehind,
      List.dropWhile_cons_of_neg (by simp [hends])]
  rw [readLine?, hfront, hrest, h.readBraces?_formatLabels]
  simp only [Option.bind_eq_bind, Option.bind_some, readMark?_self, readTo?_append hvalue,
    String.ofList_toList]
  rfl

/-- A sample is on one line. -/
theorem newline_notMem : '\n' ∉ s.line.toList := by
  rw [toList_line]
  simp only [List.mem_append, List.mem_cons, not_or]
  refine ⟨fun hmem => ?_, ?_, by decide, fun hmem => ?_, by decide, fun hmem => ?_⟩
  · exact absurd (h.metric.chars _ hmem) (by decide)
  · by_cases hlabels : s.labels = []
    · simp [hlabels, formatLabels]
    · rw [toList_formatLabels hlabels]
      simp only [List.mem_append, List.mem_cons, not_or, List.mem_nil_iff, not_false_eq_true,
        and_true]
      refine ⟨by decide, fun hmem => ?_, by decide⟩
      rcases Document.mem_intercalate hmem with hcomma | ⟨_, htext, hmem⟩
      · exact absurd hcomma (by decide)
      · obtain ⟨label, hlabel, rfl⟩ := List.mem_map.1 htext
        exact h.newline_notMem_labelText hlabel hmem
  · exact (isTight_formatValue h.value _ hmem).2 rfl
  · exact (isTight_formatTime h.time _ hmem).2 rfl

theorem labels_eq : s.labels = s.labelTexts.map fun label => (label.1, .text label.2) := by
  rw [labelTexts, List.map_map]
  conv_lhs => rw [← List.map_id s.labels]
  refine List.map_congr_left fun field hfield => ?_
  obtain ⟨text, htext, -⟩ := h.values field hfield
  simp only [Function.comp_apply, id, htext, Document.shown_text]
  rw [← htext]

end IsPlain

/-- Samples on the same line have the same metric and the same labels. -/
theorem eq_of_line_eq {a b : Sample} (ha : a.IsPlain) (hb : b.IsPlain) (h : a.line = b.line) :
    a.metric = b.metric ∧ a.labels = b.labels := by
  have hcontent : a.content = b.content :=
    Option.some.inj (ha.readLine?_line.symm.trans (h ▸ hb.readLine?_line))
  obtain ⟨hmetric, hlabels, -, -⟩ := LineContent.mk.inj hcontent
  exact ⟨hmetric, by rw [ha.labels_eq, hb.labels_eq, hlabels]⟩

end Sample

/-! ## Results -/

/-- The samples in the columns of a frame, row by row. -/
def Samples.rows (s : Samples) : List Sample :=
  List.zipWith (fun time value => ⟨s.field.metric, s.field.sampleLabels, value, time⟩) s.times
    s.numbers

/-- The samples of a frame. -/
def Frame.rows (f : Frame) : List Sample :=
  match f.samples with
  | .ok s => s.rows
  | .error _ => []

/-- The lines of a frame are those of its samples. -/
theorem Frame.lines_eq_map (f : Frame) : f.lines = f.rows.map Sample.line := by
  unfold lines rows
  cases f.samples with
  | error _ => rfl
  | ok s =>
    simp only [Samples.rows, List.map_zipWith]
    rfl

/-- Lines of plain samples are read one after the other. -/
theorem mapM_readLine? {samples : List Sample} (h : ∀ s ∈ samples, s.IsPlain) :
    (samples.map fun s => s.line.toList).mapM readLine? = some (samples.map Sample.content) := by
  induction samples with
  | nil => rfl
  | cons s samples ih =>
    obtain ⟨hs, hsamples⟩ := List.forall_mem_cons.1 h
    rw [List.map_cons, List.mapM_cons, hs.readLine?_line, ih hsamples]
    rfl

namespace QueryResult

/-- The samples of a result, frame by frame. -/
def rows (r : QueryResult) : List Sample :=
  r.groups.flatMap fun g => g.frames.flatMap Frame.rows

variable {r : QueryResult}

theorem lines_eq_map (r : QueryResult) : r.lines = r.rows.map Sample.line := by
  simp only [lines, rows, List.map_flatMap, ← Frame.lines_eq_map]

/-- The text of a result falls apart into the lines of its samples. -/
theorem linesOf_text (h : ∀ s ∈ r.rows, s.IsPlain) (hne : r.rows ≠ []) :
    linesOf r.text.toList = r.rows.map fun s => s.line.toList := by
  have hnewline : "\n".toList = ['\n'] := rfl
  rw [linesOf, text, String.toList_intercalate, hnewline, List.splitOn_intercalate,
    lines_eq_map, List.map_map]
  · rfl
  · intro line hline
    rw [lines_eq_map, List.map_map] at hline
    obtain ⟨s, hs, rfl⟩ := List.mem_map.1 hline
    exact (h s hs).newline_notMem
  · simpa [lines_eq_map] using hne

/-- Samples make a text that is not empty. -/
theorem text_ne_empty (h : ∀ s ∈ r.rows, s.IsPlain) (hne : r.rows ≠ []) : r.text ≠ "" := by
  intro htext
  obtain ⟨s, hs⟩ := List.exists_mem_of_ne_nil _ hne
  have hlines := linesOf_text h hne
  have hempty : linesOf "".toList = [[]] := rfl
  rw [htext, hempty] at hlines
  have hline : s.line.toList ∈ [[]] := hlines ▸ List.mem_map_of_mem hs
  simp [Sample.toList_line] at hline

/-- Every sample of a result is read back from its text, in order: its metric, its labels in their
order, and what was written of its value and its time. The text has as many lines as there are
samples, if there are any, and plain samples with another metric or other labels are on other
lines. -/
theorem text_readsBack (h : ∀ s ∈ r.rows, s.IsPlain) :
    readText? r.text = some (r.rows.map Sample.content) ∧
      (r.rows ≠ [] → (linesOf r.text.toList).length = r.rows.length) ∧
      ∀ a b : Sample, a.IsPlain → b.IsPlain → a.metric ≠ b.metric ∨ a.labels ≠ b.labels →
        a.line ≠ b.line := by
  refine ⟨?_, fun hne => ?_, fun a b ha hb hdiffer hline => ?_⟩
  · by_cases hne : r.rows = []
    · have htext : r.text = "" := by simp [text, lines_eq_map, hne]
      rw [readText?, if_pos htext, hne]
      rfl
    · rw [readText?, if_neg (text_ne_empty h hne), linesOf_text h hne]
      exact mapM_readLine? h
  · rw [linesOf_text h hne, List.length_map]
  · obtain ⟨hmetric, hlabels⟩ := Sample.eq_of_line_eq ha hb hline
    exact hdiffer.elim (· hmetric) (· hlabels)

/-- Labels with every other mark of the format in their values. -/
def markedLabels : Fields :=
  [("path", .text "a, b=\x7bc\x7d\\"), ("job", .text "")]

/-- Two samples with these labels, and one without any. -/
def markedResult : QueryResult :=
  ⟨[{ refId := "A"
      frames :=
        [{ fields := [⟨"", .text "time", [], []⟩, ⟨"up", .text "number", markedLabels, []⟩]
           values := [[.int 1000, .float .nan], [.null, .float (.infinite true)]]
           name := ""
           refId := .null },
          { fields := [⟨"up", .text "number", [], []⟩, ⟨"", .text "time", [], []⟩]
            values := [[.int (-3)], [.int 0]]
            name := ""
            refId := .null }]
      status := .null
      error? := none }]⟩

theorem text_readsBack_marked :
    markedResult.text = "up\x7bpath=\"a, b=\x7bc\x7d\\\",job=\"\"\x7d NaN 1000\n" ++
      "up\x7bpath=\"a, b=\x7bc\x7d\\\",job=\"\"\x7d -Inf nan\nup -3 0" ∧
    readText? markedResult.text = some
      [⟨"up", [("path", "a, b=\x7bc\x7d\\"), ("job", "")], "NaN", "1000"⟩,
        ⟨"up", [("path", "a, b=\x7bc\x7d\\"), ("job", "")], "-Inf", "nan"⟩,
        ⟨"up", [], "-3", "0"⟩] ∧
    Sample.line ⟨"up", markedLabels, .null, .int 1000⟩ ≠
      Sample.line ⟨"up", [], .int (-3), .int 0⟩ := by
  have hlabels : ∀ label ∈ markedLabels, IsIdentifier ['_'] label.1 ∧
      ∃ text, label.2 = .text text ∧ '"' ∉ text.toList ∧ '\n' ∉ text.toList := by
    refine List.forall_mem_cons.2 ⟨⟨?_, _, rfl, by decide, by decide⟩,
      List.forall_mem_singleton.2 ⟨?_, _, rfl, by decide, by decide⟩⟩
    all_goals exact isIdentifier_of_checks (by decide) (by decide)
  have hup : IsIdentifier ['_', ':'] "up" := isIdentifier_of_checks (by decide) (by decide)
  have hrows : markedResult.rows = [⟨"up", markedLabels, .null, .int 1000⟩,
      ⟨"up", markedLabels, .float (.infinite true), .float .nan⟩,
      ⟨"up", [], .int (-3), .int 0⟩] := rfl
  have hplain : ∀ s ∈ markedResult.rows, s.IsPlain := by
    rw [hrows]
    have hnames := fun label h => (hlabels label h).1
    have hvalues := fun label h => (hlabels label h).2
    exact List.forall_mem_cons.2 ⟨⟨hup, hnames, hvalues, .inl rfl, .inl ⟨_, rfl⟩⟩,
      List.forall_mem_cons.2 ⟨⟨hup, hnames, hvalues, .inr (.inr ⟨_, rfl⟩), .inr ⟨_, rfl⟩⟩,
        List.forall_mem_singleton.2
          ⟨hup, by simp, by simp, .inr (.inl ⟨_, rfl⟩), .inl ⟨_, rfl⟩⟩⟩⟩
  obtain ⟨hread, -, hlines⟩ := text_readsBack hplain
  refine ⟨by decide +kernel, ?_, ?_⟩
  · rw [hread]
    decide +kernel
  · have hmem := List.forall_mem_cons.1 (hrows ▸ hplain)
    exact hlines _ _ hmem.1 (hmem.2 _ (by simp)) (.inr (List.cons_ne_nil _ _))

end QueryResult

end PanelExport
