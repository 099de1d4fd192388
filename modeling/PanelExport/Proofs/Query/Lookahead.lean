import Mathlib.Data.List.Find
import PanelExport.Proofs.Numeral
import PanelExport.Proofs.Query.Boundaries
import PanelExport.Proofs.Query.Quotations

/-!
# How far the lexer looks

A step of the lexer depends on the characters that it takes and on a few behind them. What it takes
off a stretch of text it also takes if something stands behind the stretch that goes on with no
lexeme, and it takes the same if what stood behind the stretch is gone, unless durations are left
that had to be numbers before.

* `Choice.Keeps`: a choice that stands as long as it stays within a stretch of text.
* `takeStep_append`: what follows without going on with a lexeme changes no step.
* `takeStep_cut`: what stood behind a stretch of text may go.
* `takeStep_take`: what a step takes is taken alike if it stands alone.
-/

namespace PanelExport.Query

/-- Where one choice does not apply neither does the other, and where one takes at most `size`
characters behind the first the other takes the same. -/
def Choice.Keeps (size : Nat) (first second : Choice) : Prop :=
  (first = none → second = none) ∧
    ∀ step, first = some (.ok step) → step.extra ≤ size → second = some (.ok step)

namespace Choice.Keeps

variable {size : Nat} {first second : Choice}

theorem refl (size : Nat) (choice : Choice) : choice.Keeps size choice := ⟨id, fun _ h _ => h⟩

/-- The first of two choices that applies stands if both of them do. -/
theorem or {first' second' : Choice} (h : first.Keeps size second)
    (h' : first'.Keeps size second') :
    Choice.Keeps size (Option.or first first') (Option.or second second') := by
  cases first with
  | none => simpa [h.1 rfl] using h'
  | some outcome =>
    refine ⟨nofun, fun step hstep hsize => ?_⟩
    rw [h.2 step hstep hsize]
    rfl

theorem ite {p : Prop} [Decidable p] {first' second' : Choice} (h : first.Keeps size second)
    (h' : first'.Keeps size second') :
    Choice.Keeps size (if p then first else first') (if p then second else second') := by
  split
  · exact h
  · exact h'

/-- A step that reaches past the stretch of text is none that has to stand. -/
theorem of_lt {step : Step} (h : size < step.extra) (choice : Choice) :
    Choice.Keeps size (some (.ok step)) choice := by
  refine ⟨nofun, fun step' hstep hsize => ?_⟩
  cases hstep
  omega

end Choice.Keeps

variable {k : Context} {c : Char} {cs b rest : List Char}

/-! ## Layout, texts and names -/

/-- A comment goes on to the end of its line, which may be behind the stretch of text. -/
theorem layoutChoice_append (k : Context) (c : Char) (cs rest : List Char) :
    (layoutChoice k c cs).Keeps cs.length (layoutChoice k c (cs ++ rest)) := by
  refine .ite (.refl ..) (.ite ?_ (.refl ..))
  by_cases h : runLength (· ≠ '\n') cs < cs.length
  · rw [runLength_append_of_lt h]
    exact .refl ..
  · refine .of_lt ?_ _
    simp only
    omega

/-- Layout within a stretch of text does not need what stands behind it. -/
theorem layoutChoice_cut (k : Context) (c : Char) (cs b : List Char) :
    (layoutChoice k c (cs ++ b)).Keeps cs.length (layoutChoice k c cs) := by
  refine .ite (.refl ..) (.ite ?_ (.refl ..))
  by_cases h : runLength (· ≠ '\n') (cs ++ b) ≤ cs.length
  · rw [runLength_cut h]
    exact .refl ..
  · refine .of_lt ?_ _
    simp only
    omega

/-- Only a quote opens a text. -/
theorem textChoice_eq_none : textChoice k c cs = none ↔ c ∉ quotes := by
  unfold textChoice
  simp only [quotes, List.mem_cons, List.not_mem_nil, or_false]
  split
  · simp [*]
  · split <;> simp_all

/-- A text that is closed does not change with what stands behind it. -/
theorem textChoice_append (k : Context) (c : Char) (cs rest : List Char) :
    (textChoice k c cs).Keeps cs.length (textChoice k c (cs ++ rest)) := by
  refine ⟨fun h => textChoice_eq_none.2 (textChoice_eq_none.1 h), fun step hstep _ => ?_⟩
  obtain ⟨body, behind, hbody, rfl, rfl⟩ := textChoice_eq_ok.1 hstep
  exact textChoice_eq_ok.2 ⟨body, behind ++ rest, hbody, by simp, rfl⟩

/-- A text that is closed within a stretch of text needs nothing behind it. -/
theorem textChoice_cut (k : Context) (c : Char) (cs b : List Char) :
    (textChoice k c (cs ++ b)).Keeps cs.length (textChoice k c cs) := by
  refine ⟨fun h => textChoice_eq_none.2 (textChoice_eq_none.1 h), fun step hstep hsize => ?_⟩
  obtain ⟨body, behind, hbody, hcs, rfl⟩ := textChoice_eq_ok.1 hstep
  obtain ⟨more, rfl⟩ : body ++ [c] <+: cs := by
    have hfront : body ++ [c] <+: cs ++ b := ⟨behind, by simp [hcs]⟩
    exact List.prefix_of_prefix_length_le hfront (List.prefix_append ..) (by simpa using hsize)
  exact textChoice_eq_ok.2 ⟨body, more, hbody, by simp, rfl⟩

/-- A character that a name goes on with in a context. -/
def continuesIn (k : Context) (c : Char) : Bool :=
  continuesName c || (k.braces == 0 && c == ':')

theorem measures_name (k : Context) : Measures (runLength (continuesIn k)) :=
  .run fun c hc => by
    have hcolon : c ≠ ':' := hc.ne (by decide)
    have hunderscore : c ≠ '_' := by
      rintro rfl
      exact absurd hc.word (by decide +kernel)
    cases halnum : c.isAlphanum with
    | false => simp [continuesIn, continuesName, halnum, hcolon, hunderscore]
    | true =>
      have hword := isWord_of_isAlphanum halnum
      rw [hc.word] at hword
      cases hword

theorem nameChoice_eq (k : Context) (c : Char) (cs : List Char) : nameChoice k c cs =
    if startsName c || (k.braces == 0 && c == ':') then
      some (.ok ⟨some (.identifier, String.ofList (c :: cs.take (runLength (continuesIn k) cs))),
        runLength (continuesIn k) cs, k⟩)
    else none := rfl

/-- A name ends in front of what goes on with no lexeme. -/
theorem nameChoice_append (k : Context) (c : Char) (cs : List Char) (hr : EndsLexeme rest) :
    (nameChoice k c cs).Keeps cs.length (nameChoice k c (cs ++ rest)) := by
  rw [nameChoice_eq, nameChoice_eq, (measures_name k).append cs hr,
    List.take_append_of_le_length (runLength_le _ cs)]
  exact .refl ..

/-- A name that ends within a stretch of text ends there without what follows. -/
theorem nameChoice_cut (k : Context) (c : Char) (cs b : List Char) :
    (nameChoice k c (cs ++ b)).Keeps cs.length (nameChoice k c cs) := by
  by_cases h : runLength (continuesIn k) (cs ++ b) ≤ cs.length
  · rw [nameChoice_eq, nameChoice_eq, (measures_name k).cut h,
      List.take_append_of_le_length (runLength_le _ cs)]
    exact .refl ..
  · rw [nameChoice_eq, nameChoice_eq]
    exact .ite (.of_lt (Nat.lt_of_not_le h) _) (.refl ..)

/-! ## Durations and numbers -/

/-- The kind and the length of a literal: a duration if there is one, or else a number. -/
def literal? (cs : List Char) : Option (Kind × Nat) :=
  match durationSize? cs, numberSize? cs with
  | some size, _ => some (.duration, size)
  | none, some size => some (.number, size)
  | none, none => none

/-- Where a duration can be read it is, even if a number could be too. -/
theorem literal?_of_duration {n : Nat} (h : durationSize? cs = some n) :
    literal? cs = some (.duration, n) := by
  simp [literal?, h]

/-- Where no duration is read a number may be. -/
theorem literal?_of_none (h : durationSize? cs = none) :
    literal? cs = (numberSize? cs).map (Kind.number, ·) := by
  cases hn : numberSize? cs <;> simp [literal?, h, hn]

/-- Without a digit at the front, or behind a point at the front, there is no literal. -/
theorem literal?_eq_none (h : (isDigit c || (c == '.' && cs.head?.any isDigit)) = false) :
    literal? (c :: cs) = none := by
  obtain ⟨hc, hpoint⟩ := Bool.or_eq_false_iff.1 h
  have hdecimal : isDecimalDigit c = false := (Bool.or_eq_false_iff.1 hc).1
  have hwhole : runLength isDecimalDigit (c :: cs) = 0 := by simp [runLength, hdecimal]
  have hfraction : fractionSize 0 (c :: cs) = 0 := by
    by_cases hdot : c = '.'
    · subst hdot
      cases cs with
      | nil => rfl
      | cons d cs =>
        have hdigit : isDigit d = false := by simpa using hpoint
        have hd : isDecimalDigit d = false := (Bool.or_eq_false_iff.1 hdigit).1
        simp [fractionSize, runLength, hd]
    · exact fractionSize_cons hdot 0 cs
  have hduration : durationSize? (c :: cs) = none := by
    have hread : Chunk.read? (c :: cs) = none := by simp [Chunk.read?, spanDigits, hdecimal]
    rw [durationSize?, spanChunks_of_none hread]
  have hnumber : numberSize? (c :: cs) = none := by
    rw [numberSize?_decimal, if_pos]
    · simp only [decimalLength, hwhole, List.drop_zero, hfraction, if_true]
    · rintro d r - hcs
      rw [(List.cons.inj hcs).1] at hdecimal
      exact absurd hdecimal (by decide)
  rw [literal?_of_none hduration, hnumber, Option.map_none]

theorem numberChoice_eq (k : Context) (c : Char) (cs : List Char) :
    numberChoice k c cs = (literal? (c :: cs)).map fun (kind, size) =>
      .ok ⟨some (kind, String.ofList ((c :: cs).take size)), size - 1, k⟩ := by
  have hchoice : numberChoice k c cs =
      if isDigit c || (c == '.' && cs.head?.any isDigit) then
        (literal? (c :: cs)).map fun (kind, size) =>
          .ok ⟨some (kind, String.ofList ((c :: cs).take size)), size - 1, k⟩
      else none := by
    unfold numberChoice literal?
    cases durationSize? (c :: cs) <;> cases numberSize? (c :: cs) <;> rfl
  rw [hchoice]
  split
  · rfl
  · rename_i hstarts
    rw [literal?_eq_none (Bool.not_eq_true _ ▸ hstarts), Option.map_none]

theorem numberChoice_eq_none : numberChoice k c cs = none ↔ literal? (c :: cs) = none := by
  rw [numberChoice_eq, Option.map_eq_none_iff]

/-- The choice of a literal takes the characters of the literal. -/
theorem numberChoice_eq_ok {step : Step} : numberChoice k c cs = some (.ok step) ↔
    ∃ kind size, literal? (c :: cs) = some (kind, size) ∧
      step = ⟨some (kind, String.ofList ((c :: cs).take size)), size - 1, k⟩ := by
  rw [numberChoice_eq, Option.map_eq_some_iff]
  constructor
  · rintro ⟨⟨kind, size⟩, hsize, he⟩
    cases he
    exact ⟨kind, size, hsize, rfl⟩
  · rintro ⟨kind, size, hsize, rfl⟩
    exact ⟨(kind, size), hsize, rfl⟩

/-- A literal ends in front of what goes on with no lexeme. -/
theorem literal?_append (cs : List Char) (hr : EndsLexeme rest) :
    literal? (cs ++ rest) = literal? cs := by
  rw [literal?, durationSize?_append cs hr, numberSize?_append cs hr, literal?]

/-- A literal of a stretch of text is one of the stretch alone, if no duration comes up there. -/
theorem literal?_cut (hduration : durationSize? (cs ++ b) = none → durationSize? cs = none)
    {kind : Kind} {n : Nat} (h : literal? (cs ++ b) = some (kind, n)) (hn : n ≤ cs.length) :
    literal? cs = some (kind, n) := by
  cases hd : durationSize? (cs ++ b) with
  | some m =>
    rw [literal?_of_duration hd] at h
    cases h
    exact literal?_of_duration (durationSize?_cut hd hn)
  | none =>
    rw [literal?_of_none hd] at h
    obtain ⟨m, hm, he⟩ := Option.map_eq_some_iff.1 h
    cases he
    rw [literal?_of_none (hduration hd), numberSize?_cut hm hn, Option.map_some]

theorem literal?_cut_none (hduration : durationSize? (cs ++ b) = none → durationSize? cs = none)
    (h : literal? (cs ++ b) = none) : literal? cs = none := by
  cases hd : durationSize? (cs ++ b) with
  | some m =>
    rw [literal?_of_duration hd] at h
    cases h
  | none =>
    rw [literal?_of_none hd, Option.map_eq_none_iff] at h
    rw [literal?_of_none (hduration hd), numberSize?_cut_none h]
    rfl

/-- A literal is a duration or a number, measured as such. -/
theorem literal?_kind {kind : Kind} {n : Nat} (h : literal? cs = some (kind, n)) :
    kind = .duration ∧ durationSize? cs = some n ∨ kind = .number ∧ numberSize? cs = some n := by
  cases hd : durationSize? cs with
  | some m =>
    rw [literal?_of_duration hd] at h
    cases h
    exact .inl ⟨rfl, rfl⟩
  | none =>
    rw [literal?_of_none hd] at h
    obtain ⟨m, hm, he⟩ := Option.map_eq_some_iff.1 h
    cases he
    exact .inr ⟨rfl, hm⟩

/-- A literal is not empty, and no longer than its text. -/
theorem literal?_bounds {kind : Kind} {n : Nat} (h : literal? cs = some (kind, n)) :
    0 < n ∧ n ≤ cs.length := by
  rcases literal?_kind h with ⟨-, hd⟩ | ⟨-, hn⟩
  · exact ⟨durationSize?_pos hd, by have := (durationSize?_eq_some.1 hd).2.1; omega⟩
  · exact ⟨numberSize?_pos hn, numberSize?_le hn⟩

/-- Which literal is chosen does not depend on what ends it. -/
theorem numberChoice_append (k : Context) (c : Char) (cs : List Char) (hr : EndsLexeme rest) :
    (numberChoice k c cs).Keeps cs.length (numberChoice k c (cs ++ rest)) := by
  have hliteral := literal?_append (c :: cs) hr
  rw [List.cons_append] at hliteral
  refine ⟨fun h => ?_, fun step hstep hlength => ?_⟩
  · rw [numberChoice_eq_none] at h ⊢
    rw [hliteral, h]
  · obtain ⟨kind, size, hsize, rfl⟩ := numberChoice_eq_ok.1 hstep
    refine numberChoice_eq_ok.2 ⟨kind, size, hliteral.trans hsize, ?_⟩
    have hle : size ≤ (c :: cs).length := Nat.le_add_of_sub_le hlength
    rw [← List.cons_append, List.take_append_of_le_length hle]

/-- A literal that ends within a stretch of text is chosen there alone, unless a duration is left
that was none before. -/
theorem numberChoice_cut (k : Context) (c : Char) (cs b : List Char)
    (hduration : durationSize? (c :: cs ++ b) = none → durationSize? (c :: cs) = none) :
    (numberChoice k c (cs ++ b)).Keeps cs.length (numberChoice k c cs) := by
  refine ⟨fun h => ?_, fun step hstep hlength => ?_⟩
  · rw [numberChoice_eq_none] at h ⊢
    exact literal?_cut_none hduration h
  · obtain ⟨kind, size, hsize, rfl⟩ := numberChoice_eq_ok.1 hstep
    have hle : size ≤ (c :: cs).length := Nat.le_add_of_sub_le hlength
    refine numberChoice_eq_ok.2 ⟨kind, size, literal?_cut hduration hsize hle, ?_⟩
    rw [← List.cons_append, List.take_append_of_le_length hle]

/-! ## Operators -/

/-- Behind its first character an operator has only characters that end no lexeme. -/
theorem isPrefixOf_append {op : List Char} (hop : ∀ d ∈ op, d = '=' ∨ d = '~') (cs : List Char)
    (hr : EndsLexeme rest) : op.isPrefixOf (cs ++ rest) = op.isPrefixOf cs := by
  induction op generalizing cs with
  | nil => simp
  | cons d op ih =>
    obtain ⟨hd, hop⟩ := List.forall_mem_cons.1 hop
    cases cs with
    | cons c cs => simp only [List.cons_append, List.isPrefixOf, ih hop cs]
    | nil =>
      cases rest with
      | nil => rfl
      | cons c rest =>
        have hne : (d == c) = false := by
          have hc := (hr c rfl).ne (d := d) (by rcases hd with rfl | rfl <;> decide)
          simpa using Ne.symm hc
        simp [List.isPrefixOf, hne]

/-- The operator at the front of a text. -/
def operator? (cs : List Char) : Option String :=
  operators.find? fun op => op.toList.isPrefixOf cs

/-- An operator that is found is one of them and stands at the front. -/
theorem operator?_eq_some {op : String} (h : operator? cs = some op) :
    op ∈ operators ∧ op.toList <+: cs := by
  unfold operator? at h
  exact ⟨List.mem_of_find?_eq_some h, by simpa using List.find?_some h⟩

/-- The longest operator at the front does not change with what goes on with no lexeme. -/
theorem operator?_append (c : Char) (cs : List Char) (hr : EndsLexeme rest) :
    operator? (c :: cs ++ rest) = operator? (c :: cs) := by
  have htails : operators.all (fun op => op.toList.tail.all fun d => d == '=' || d == '~') = true :=
    by decide
  refine List.find?_congr fun op hop => ?_
  have htail : ∀ d ∈ op.toList.tail, d = '=' ∨ d = '~' := by
    simpa using List.all_eq_true.1 htails op hop
  cases hs : op.toList with
  | nil => rfl
  | cons d ds =>
    rw [hs, List.tail_cons] at htail
    simp only [List.cons_append, List.isPrefixOf, isPrefixOf_append htail cs hr]

/-- An operator that ends within a stretch of text is the longest one there too. -/
theorem operator?_cut {op : String} (h : operator? (cs ++ b) = some op)
    (hlength : op.length ≤ cs.length) : operator? cs = some op := by
  obtain ⟨hop, before, behind, hops, hbefore⟩ := List.find?_eq_some_iff_append.1 h
  refine List.find?_eq_some_iff_append.2 ⟨?_, before, behind, hops, fun o ho => ?_⟩
  · rw [List.isPrefixOf_iff_prefix] at hop ⊢
    exact List.prefix_of_prefix_length_le hop (List.prefix_append ..)
      (String.length_toList ▸ hlength)
  · have hnot := hbefore o ho
    simp only [Bool.not_eq_true', ← Bool.not_eq_true, List.isPrefixOf_iff_prefix] at hnot ⊢
    exact fun hfront => hnot (hfront.trans (List.prefix_append ..))

theorem operator?_cut_none (h : operator? (cs ++ b) = none) : operator? cs = none := by
  rw [operator?, List.find?_eq_none] at h ⊢
  intro op hop hfront
  rw [List.isPrefixOf_iff_prefix] at hfront
  exact h op hop (List.isPrefixOf_iff_prefix.2 (hfront.trans (List.prefix_append ..)))

theorem operatorChoice_eq_none : operatorChoice k c cs = none ↔ operator? (c :: cs) = none :=
  Option.map_eq_none_iff

/-- In braces, an operator that compares a label is a token of its own kind. -/
theorem operatorChoice_eq_ok {step : Step} : operatorChoice k c cs = some (.ok step) ↔
    ∃ op, operator? (c :: cs) = some op ∧
      step = ⟨some (if 0 < k.braces ∧ op ∈ matcherTexts then Kind.matcher else .operator, op),
        op.length - 1, k⟩ := by
  unfold operatorChoice
  rw [Option.map_eq_some_iff]
  constructor
  · rintro ⟨op, hop, he⟩
    cases he
    exact ⟨op, hop, rfl⟩
  · rintro ⟨op, hop, rfl⟩
    exact ⟨op, hop, rfl⟩

theorem operatorChoice_append (k : Context) (c : Char) (cs : List Char) (hr : EndsLexeme rest) :
    (operatorChoice k c cs).Keeps cs.length (operatorChoice k c (cs ++ rest)) := by
  have hoperator : operator? (c :: (cs ++ rest)) = operator? (c :: cs) := operator?_append c cs hr
  refine ⟨fun h => ?_, fun step hstep _ => ?_⟩
  · rw [operatorChoice_eq_none] at h ⊢
    rw [hoperator, h]
  · obtain ⟨op, hop, rfl⟩ := operatorChoice_eq_ok.1 hstep
    exact operatorChoice_eq_ok.2 ⟨op, hoperator.trans hop, rfl⟩

theorem operatorChoice_cut (k : Context) (c : Char) (cs b : List Char) :
    (operatorChoice k c (cs ++ b)).Keeps cs.length (operatorChoice k c cs) := by
  refine ⟨fun h => ?_, fun step hstep hlength => ?_⟩
  · rw [operatorChoice_eq_none] at h ⊢
    exact operator?_cut_none h
  · obtain ⟨op, hop, rfl⟩ := operatorChoice_eq_ok.1 hstep
    have hle : op.length ≤ (c :: cs).length := Nat.le_add_of_sub_le hlength
    exact operatorChoice_eq_ok.2 ⟨op, operator?_cut hop hle, rfl⟩

/-! ## Steps -/

/-- A step is the first of the six choices that applies. -/
theorem takeStep_eq_ok {step : Step} : takeStep k c cs = .ok step ↔
    (layoutChoice k c cs).or ((textChoice k c cs).or ((markChoice k c).or
      ((numberChoice k c cs).or ((nameChoice k c cs).or (operatorChoice k c cs))))) =
        some (.ok step) := by
  unfold takeStep
  rcases Option.or (layoutChoice k c cs) _ with _ | _ | _ <;> simp

/-- What follows without going on with a lexeme changes no step within the text before it. -/
theorem takeStep_append {step : Step} (h : takeStep k c cs = .ok step)
    (hlength : step.extra ≤ cs.length) (hr : EndsLexeme rest) :
    takeStep k c (cs ++ rest) = .ok step := by
  rw [takeStep_eq_ok] at h ⊢
  have hkeeps := (layoutChoice_append k c cs rest).or <| (textChoice_append k c cs rest).or <|
    (Choice.Keeps.refl cs.length (markChoice k c)).or <| (numberChoice_append k c cs hr).or <|
      (nameChoice_append k c cs hr).or (operatorChoice_append k c cs hr)
  exact hkeeps.2 step h hlength

/-- What stands behind a stretch of text may go without a change to a step within it, unless a
duration comes up. -/
theorem takeStep_cut {step : Step} (h : takeStep k c (cs ++ b) = .ok step)
    (hlength : step.extra ≤ cs.length)
    (hduration : durationSize? (c :: cs ++ b) = none → durationSize? (c :: cs) = none) :
    takeStep k c cs = .ok step := by
  rw [takeStep_eq_ok] at h ⊢
  have hkeeps := (layoutChoice_cut k c cs b).or <| (textChoice_cut k c cs b).or <|
    (Choice.Keeps.refl cs.length (markChoice k c)).or <| (numberChoice_cut k c cs b hduration).or <|
      (nameChoice_cut k c cs b).or (operatorChoice_cut k c cs b)
  exact hkeeps.2 step h hlength

/-- The characters that start a text, a comment, a bracket or a mark are no digits. -/
theorem not_mem_of_isDecimalDigit {c : Char} (h : isDecimalDigit c = true) :
    c ∉ ['#', '\x60', '"', '\'', '(', ')', '\x7b', '\x7d', '[', ']', ',', '@', ':'] := by
  intro hm
  have hall : ['#', '\x60', '"', '\'', '(', ')', '\x7b', '\x7d', '[', ']', ',', '@', ':'].all
      (!isDecimalDigit ·) = true := by
    decide +kernel
  simpa [h] using List.all_eq_true.1 hall c hm

/-- Outside of texts only numbers and durations start with a digit. -/
theorem takeStep_of_isDecimalDigit (h : isDecimalDigit c = true) {step : Step}
    (hn : numberChoice k c cs = some (.ok step)) : takeStep k c cs = .ok step := by
  have hblank := isBlank_of_isDecimalDigit h
  have hmarks := not_mem_of_isDecimalDigit h
  simp only [List.mem_cons, List.not_mem_nil, or_false, not_or] at hmarks
  have hmark : markChoice k c = none := by simp [markChoice, hmarks]
  simp [takeStep, layoutChoice, textChoice, hblank, hmarks, hmark, hn]

theorem numberSize?_of_isDecimalDigit (h : isDecimalDigit c = true) (cs : List Char) :
    ∃ n, numberSize? (c :: cs) = some n := by
  by_cases hhex : ∃ d r, IsHexMark d ∧ c :: cs = '0' :: d :: r
  · obtain ⟨d, r, hd, hcs⟩ := hhex
    exact ⟨_, hcs ▸ numberSize?_hex hd r⟩
  · have hpos : decimalLength (c :: cs) ≠ 0 := by
      simp [decimalLength, runLength, h]
    exact ⟨_, by rw [numberSize?_decimal fun d r hd hcs => hhex ⟨d, r, hd, hcs⟩, if_neg hpos]⟩

/-- What starts with a digit and is no duration is taken as a number. -/
theorem exists_number_of_takeStep {step : Step} (h : takeStep k c cs = .ok step)
    (hdigit : isDecimalDigit c = true) (hduration : durationSize? (c :: cs) = none) :
    ∃ n, numberSize? (c :: cs) = some n ∧ step.extra = n - 1 := by
  obtain ⟨n, hn⟩ := numberSize?_of_isDecimalDigit hdigit cs
  have hliteral : literal? (c :: cs) = some (.number, n) := by
    rw [literal?_of_none hduration, hn, Option.map_some]
  have hstep := takeStep_of_isDecimalDigit hdigit
    (numberChoice_eq_ok (k := k).2 ⟨.number, n, hliteral, rfl⟩)
  rw [h] at hstep
  cases hstep
  exact ⟨n, hn, rfl⟩

/-- A chunk of a duration starts with a digit. -/
theorem isDecimalDigit_of_read? (h : Chunk.read? (c :: cs) ≠ none) : isDecimalDigit c = true := by
  obtain ⟨⟨chunk, rest⟩, hread⟩ := Option.ne_none_iff_exists'.1 h
  obtain ⟨ds, hne, hds, hcs, -, -⟩ := Chunk.read?_eq_some.1 hread
  obtain ⟨d, ds, rfl⟩ := List.exists_cons_of_ne_nil hne
  rw [(List.cons.inj hcs).1]
  exact hds d (by simp)

/-- What a step takes is taken alike if it stands alone. -/
theorem takeStep_take {step : Step} (h : takeStep k c cs = .ok step)
    (hlength : step.extra ≤ cs.length) : takeStep k c (cs.take step.extra) = .ok step := by
  have hsize : (cs.take step.extra).length = step.extra := List.length_take_of_le hlength
  have hcs : cs.take step.extra ++ cs.drop step.extra = cs := List.take_append_drop ..
  refine takeStep_cut (b := cs.drop step.extra) (by rw [hcs, h]) (Nat.le_of_eq hsize.symm) ?_
  rw [List.cons_append, hcs]
  intro hnone
  refine durationSize?_cut_none (b := cs.drop step.extra) (by rw [List.cons_append, hcs, hnone]) ?_
  -- A number that is cut where it ends has no unit behind its digits.
  intro hwhole
  have hread := read?_ne_none_of_duration hwhole
  obtain ⟨n, hn, hextra⟩ := exists_number_of_takeStep h (isDecimalDigit_of_read? hread) hnone
  have hpos := numberSize?_pos hn
  have hle : n ≤ (c :: cs.take step.extra).length := by
    rw [List.length_cons, hsize]
    omega
  have hcut : numberSize? (c :: cs.take step.extra) = some n :=
    numberSize?_cut (b := cs.drop step.extra) (by rw [List.cons_append, hcs, hn]) hle
  have hlt := numberSize?_lt hread hcut
  rw [List.length_cons, hsize] at hlt
  omega

theorem mem_quotes_of_encloses {quote : Char} {body : List Char} (h : Encloses quote body) :
    quote ∈ quotes := by
  cases h with
  | back _ => decide
  | escaped hq _ => rcases hq with rfl | rfl <;> decide

/-- A text between quotes is one token in every context, whatever stands behind it. -/
theorem takeStep_spells {s : String} {quote : Char} {body : List Char}
    (h : Spells s.toList quote body) (k : Context) (b : List Char) :
    takeStep k quote (body ++ quote :: b) = .ok ⟨some (.text, s), body.length + 1, k⟩ := by
  have hall : quotes.all (fun q => !isBlank q && q != '#') = true := by decide
  have hquiet : isBlank quote = false ∧ quote ≠ '#' := by
    simpa using List.all_eq_true.1 hall quote (mem_quotes_of_encloses h.encloses)
  have hlayout : layoutChoice k quote (body ++ quote :: b) = none := by
    simp [layoutChoice, hquiet]
  have htext : textChoice k quote (body ++ quote :: b) =
      some (.ok ⟨some (.text, s), body.length + 1, k⟩) :=
    textChoice_eq_ok.2 ⟨body, b, h.encloses, rfl, by rw [h.decode, String.ofList_toList]⟩
  rw [takeStep_eq_ok, hlayout, htext]
  rfl

end PanelExport.Query
