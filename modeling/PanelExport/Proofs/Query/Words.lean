import Mathlib.Data.List.TakeWhile
import PanelExport.Proofs.Double.Text
import PanelExport.Proofs.Query.Lookahead
import PanelExport.Proofs.Query.Printer

/-!
# Words as tokens

The lexer takes words one by one. A word is what the lexer takes where the word stands, if nothing
or a blank stands behind it; the blank then is layout. What a bracket opens is closed by another
word, so a word may change the context.

* `Word.Lexes`: a word is one token in a context.
* `Word.lexes_of_alone`: it is so if it is one token where nothing stands behind it.
* `tokens_of_spaced`: a row of words gives the tokens it stands for.
* `operator_lexes`, `quoted_lexes`, `name_lexes`, `duration_lexes`, `number_lexes`: the kinds of
  words that are one token.
-/

namespace PanelExport.Query

/-- Nothing or a blank comes next. -/
def EndsWord (rest : List Char) : Prop := ∀ c ∈ rest.head?, c = ' '

/-- A word is what the lexer takes, and the context is another one behind it. -/
def Word.Lexes (k : Context) (w : Word) (k' : Context) : Prop :=
  ∃ c cs, w.source = c :: cs ∧ ∀ rest, EndsWord rest →
    takeStep k c (cs ++ rest) = .ok ⟨some (w.kind, w.value), cs.length, k'⟩

theorem EndsWord.endsLexeme {rest : List Char} (hr : EndsWord rest) : EndsLexeme rest :=
  fun c hc => breaks_of_isBlank (by rw [hr c hc]; decide)

/-- A word is what the lexer takes if it is so where nothing stands behind it. -/
theorem Word.lexes_of_alone {k k' : Context} {w : Word} {c : Char} {cs : List Char}
    (hsource : w.source = c :: cs)
    (h : takeStep k c cs = .ok ⟨some (w.kind, w.value), cs.length, k'⟩) : w.Lexes k k' :=
  ⟨c, cs, hsource, fun _ hr => takeStep_append h (Nat.le_refl _) hr.endsLexeme⟩

/-- All words of a row are what the lexer takes. -/
inductive LexRow : Context → List Word → Context → Prop where
  | nil (k : Context) : LexRow k [] k
  | cons {k k₁ k₂ : Context} {w : Word} {ws : List Word} (first : w.Lexes k k₁)
      (others : LexRow k₁ ws k₂) : LexRow k (w :: ws) k₂

/-- Rows of lexemes go on from the context that the first one leaves. -/
theorem LexRow.append {k k₁ k₂ : Context} {vs ws : List Word} (h : LexRow k vs k₁)
    (h' : LexRow k₁ ws k₂) : LexRow k (vs ++ ws) k₂ := by
  induction h with
  | nil => exact h'
  | cons first _ ih => exact .cons first (ih h')

theorem LexRow.single {k k' : Context} {w : Word} (h : w.Lexes k k') : LexRow k [w] k' :=
  .cons h (.nil k')

/-! ## Tokens -/

/-- The tokens are those that the words stand for, wherever they stand. -/
def Stand (ts : List Token) (ws : List Word) : Prop :=
  ts.map (fun t => (t.kind, t.value)) = ws.map fun w => (w.kind, w.value)

theorem endsWord_nil : EndsWord [] := nofun

theorem endsWord_blank (cs : List Char) : EndsWord (' ' :: cs) := by
  simp [EndsWord]

/-- A blank is layout in every context. -/
theorem takeStep_blank (k : Context) (cs : List Char) :
    takeStep k ' ' cs = .ok ⟨none, 0, k⟩ := by
  have hblank : isBlank ' ' = true := by decide
  simp [takeStep, layoutChoice, hblank]

/-- What follows the first word of a row. -/
def behind (ws : List Word) : List Char :=
  if ws = [] then [] else ' ' :: spaced ws

theorem spaced_cons (w : Word) (ws : List Word) : spaced (w :: ws) = w.source ++ behind ws := by
  cases ws <;> simp [spaced, behind]

/-- The words behind a word start with a blank, so they end it. -/
theorem endsWord_behind (ws : List Word) : EndsWord (behind ws) := by
  cases ws with
  | nil => exact endsWord_nil
  | cons w ws => exact endsWord_blank _

/-- A row of words gives the tokens it stands for. -/
theorem tokens_of_spaced {k k' : Context} {ws : List Word} (h : LexRow k ws k')
    (closed : k'.unclosed? = none) (pos : Nat) :
    ∃ ps, piecesFrom k pos (spaced ws) = .ok ps ∧ Stand (tokensOf pos ps) ws := by
  induction h generalizing pos with
  | nil k =>
    refine ⟨[], ?_, rfl⟩
    rw [spaced, piecesFrom, closed]
  | @cons k k₁ k₂ w ws first others ih =>
    obtain ⟨c, cs, hsource, htake⟩ := first
    -- Between two words stands one blank, which is layout and no token.
    have hpieces : ∃ ps, piecesFrom k₁ (pos + w.source.length) (behind ws) = .ok ps ∧
        Stand (tokensOf (pos + w.source.length) ps) ws := by
      cases ws with
      | nil => exact ih closed _
      | cons v ws =>
        obtain ⟨ps, hps, hstand⟩ := ih closed (pos + w.source.length + 1)
        refine ⟨.layout [' '] :: ps, ?_, hstand⟩
        rw [behind, if_neg (by simp), piecesFrom, takeStep_blank]
        simp [hps, bind, Except.bind, pure, Except.pure]
    obtain ⟨ps, hps, hstand⟩ := hpieces
    refine ⟨.lexeme w.kind w.value w.source :: ps, ?_, ?_⟩
    · have hrest := htake (behind ws) (endsWord_behind ws)
      rw [spaced_cons, hsource, List.cons_append, piecesFrom, hrest]
      simp [← hsource, hps, bind, Except.bind, pure, Except.pure]
    · simpa [Stand, tokensOf] using hstand

/-! ## Marks and operators -/

/-- The context inside the braces of a selector. -/
def Context.inBraces : Context := ⟨1, 0⟩

/-- The context inside the brackets of a range. -/
def Context.inBrackets : Context := ⟨0, 1⟩

section Marks

variable {k : Context}

theorem leftParen_lexes : (Word.mark .leftParen).Lexes k k :=
  ⟨'(', [], rfl, fun _ _ => rfl⟩

theorem rightParen_lexes : (Word.mark .rightParen).Lexes k k :=
  ⟨')', [], rfl, fun _ _ => rfl⟩

theorem comma_lexes : (Word.mark .comma).Lexes k k :=
  ⟨',', [], rfl, fun _ _ => rfl⟩

theorem leftBrace_lexes : (Word.mark .leftBrace).Lexes .outside .inBraces :=
  ⟨'\x7b', [], rfl, fun _ _ => rfl⟩

theorem rightBrace_lexes : (Word.mark .rightBrace).Lexes .inBraces .outside :=
  ⟨'\x7d', [], rfl, fun _ _ => rfl⟩

theorem leftBracket_lexes : (Word.mark .leftBracket).Lexes .outside .inBrackets :=
  ⟨'[', [], rfl, fun _ _ => rfl⟩

theorem rightBracket_lexes : (Word.mark .rightBracket).Lexes .inBrackets .outside :=
  ⟨']', [], rfl, fun _ _ => rfl⟩

theorem colon_lexes : (Word.mark .colon).Lexes .inBrackets .inBrackets :=
  ⟨':', [], rfl, fun _ _ => rfl⟩

/-- The symbol of an operator is read as that operator, outside of all brackets. -/
theorem operator_lexes {op : BinaryOp} (h : op ∉ wordOperators) :
    op.word.Lexes .outside .outside := by
  cases op <;> first
    | exact absurd (by decide) h
    | exact Word.lexes_of_alone rfl rfl

theorem sign_lexes (sign : Sign) : sign.word.Lexes .outside .outside := by
  cases sign <;> exact Word.lexes_of_alone rfl rfl

/-- The symbol of a comparison of labels is read as one inside of braces. -/
theorem matchOp_lexes (op : MatchOp) :
    (Word.plain .matcher op.symbol).Lexes .inBraces .inBraces := by
  cases op <;> exact Word.lexes_of_alone rfl rfl

end Marks

/-! ## Texts in quotes -/

theorem escape_eq (cs : List Char) : Word.escape cs = escapeFor '"' cs := by
  induction cs with
  | nil => rfl
  | cons c cs ih => rw [Word.escape, escapeFor, ih]

/-- A text between quotes is read in every context, whatever it holds. -/
theorem quoted_lexes {k : Context} (s : String) : (Word.quoted s).Lexes k k := by
  have hstep := takeStep_spells (.escaped (.inl rfl) : Spells s.toList '"' _) k []
  rw [← escape_eq] at hstep
  exact Word.lexes_of_alone rfl (by simpa [Word.quoted] using hstep)

/-! ## Names -/

/-- What holds of the first hundred and twenty-eight characters holds of a character among them. -/
theorem ascii_induction {P : Char → Prop} (h : ∀ n < 128, P (Char.ofNat n)) {c : Char}
    (hc : c.toNat < 128) : P c := by
  have hn := h c.toNat hc
  rwa [Char.ofNat_toNat] at hn

/-- A character that a name outside braces may start with. -/
def startsMetric (c : Char) : Bool := startsName c || c == ':'

/-- A character inside a name outside braces. -/
def continuesMetric (c : Char) : Bool := continuesName c || c == ':'

/-- What starts the name of a metric is a basic character. -/
theorem toNat_lt_of_startsMetric {c : Char} (h : startsMetric c = true) : c.toNat < 128 := by
  simp only [startsMetric, startsName, Bool.or_eq_true, beq_iff_eq] at h
  rcases h with (h | rfl) | rfl
  · rcases (Bool.or_eq_true _ _).mp h with h | h
    · have hle : c.val ≤ 'Z'.val := (of_decide_eq_true h).2
      exact Nat.lt_of_le_of_lt (UInt32.le_iff_toNat_le.1 hle) (by decide)
    · have hle : c.val ≤ 'z'.val := of_decide_eq_true ((Bool.and_eq_true _ _).mp h).2
      exact Nat.lt_of_le_of_lt (UInt32.le_iff_toNat_le.1 hle) (by decide)
  · decide
  · decide

/-- No token other than a name starts with a character that a name may start with. -/
theorem choices_of_startsMetric {c : Char} (h : startsMetric c = true) :
    isBlank c = false ∧ isDigit c = false ∧ c ∉ ['#', '\x60', '"', '\'', '(', ')', '\x7b', '\x7d',
      '[', ']', ',', '@', '.'] := by
  have hlt := toNat_lt_of_startsMetric h
  revert h
  refine ascii_induction (P := fun c => startsMetric c = true → isBlank c = false ∧
    isDigit c = false ∧ c ∉ ['#', '\x60', '"', '\'', '(', ')', '\x7b', '\x7d', '[', ']', ',', '@',
      '.']) ?_ hlt
  decide +kernel

/-- A name of a metric, of a function or of the language. -/
structure IsName (s : String) : Prop where
  starts : ∃ c ∈ s.toList.head?, startsMetric c = true
  continues : ∀ c ∈ s.toList, continuesMetric c = true

/-- A name is read as one word. -/
theorem name_lexes {s : String} (h : IsName s) : (Word.name s).Lexes .outside .outside := by
  obtain ⟨⟨c, hc, hstarts⟩, hcontinues⟩ := h
  obtain ⟨cs, hs⟩ : ∃ cs, s.toList = c :: cs := List.head?_eq_some_iff.1 hc
  obtain ⟨hblank, hdigit, hmarks⟩ := choices_of_startsMetric hstarts
  simp only [List.mem_cons, List.not_mem_nil, or_false, not_or] at hmarks
  have hinside : ∀ d ∈ cs, (continuesName d || d == ':') = true := fun d hd =>
    hcontinues d (by simp [hs, hd])
  have hrun : runLength (fun c => continuesName c || c == ':') cs = cs.length := by
    rw [runLength, List.takeWhile_eq_self_iff.2 hinside]
  have hvalue : String.ofList (c :: cs) = s := by rw [← hs, String.ofList_toList]
  have hstarts : (startsName c || c == ':') = true := hstarts
  have hmark : markChoice .outside c = none := by
    simp [markChoice, hmarks, Context.outside]
  have hname : nameChoice .outside c cs =
      some (.ok ⟨some (.identifier, s), cs.length, .outside⟩) := by
    simp only [nameChoice, Context.outside, beq_self_eq_true, Bool.true_and, hstarts, if_true, hrun,
      List.take_length, hvalue]
  refine Word.lexes_of_alone hs ?_
  simp [takeStep, layoutChoice, textChoice, numberChoice, hblank, hdigit, hmarks, hmark, hname,
    Word.name, Word.plain]

/-! ## Durations and numbers -/

/-- The first character of a duration is a digit. -/
theorem isDecimalDigit_of_duration {cs : List Char} (hne : (spanChunks cs).1 ≠ []) :
    ∃ c ds, cs = c :: ds ∧ isDecimalDigit c = true := by
  cases cs with
  | nil => exact absurd (by rw [spanChunks_nil]) hne
  | cons c ds =>
    refine ⟨c, ds, rfl, ?_⟩
    by_cases hc : isDecimalDigit c = true
    · exact hc
    · have hnone : Chunk.read? (c :: ds) = none := by simp [Chunk.read?, spanDigits, hc]
      exact absurd (by rw [spanChunks_of_none hnone]) hne

theorem duration_lexes {k : Context} {s : String} (h : IsDuration s) :
    (Word.plain .duration s).Lexes k k := by
  obtain ⟨hne, hnil⟩ := h
  obtain ⟨c, cs, hs, hdigit⟩ := isDecimalDigit_of_duration hne
  have hsize : durationSize? (c :: cs) = some (cs.length + 1) := by
    rw [← hs, durationSize?_eq_some]
    exact ⟨hne, by rw [hnil, hs]; rfl, by simp [hnil]⟩
  have hvalue : String.ofList (c :: cs) = s := by rw [← hs, String.ofList_toList]
  refine Word.lexes_of_alone hs (takeStep_of_isDecimalDigit hdigit ?_)
  simp [numberChoice, isDigit, hdigit, hsize, hvalue, Word.plain]

theorem toList_seconds (n : Nat) : (toString n ++ "s").toList = Nat.toDigits 10 n ++ ['s'] := by
  simp

/-- The digits of a whole number and the second are one chunk. -/
theorem spanChunks_seconds (n : Nat) : spanChunks (Nat.toDigits 10 n ++ ['s']) =
    ([⟨digitValues (Nat.toDigits 10 n), .second⟩], []) := by
  have hspan : spanDigits (Nat.toDigits 10 n ++ ['s']) = (digitValues (Nat.toDigits 10 n), ['s']) :=
    spanDigits_append Double.isDigit_of_mem_toDigits (endsDigits_cons (by decide))
  have hchunk : Chunk.read? (Nat.toDigits 10 n ++ ['s']) =
      some (⟨digitValues (Nat.toDigits 10 n), .second⟩, []) := by
    have hne : digitValues (Nat.toDigits 10 n) ≠ [] := by
      simp [digitValues]
    obtain ⟨d, ds, hds⟩ := List.exists_cons_of_ne_nil hne
    rw [Chunk.read?, hspan, hds]
    rfl
  rw [spanChunks_of_some hchunk, spanChunks_nil]

/-- A number of seconds is a duration. -/
theorem isDuration_seconds (n : Nat) : IsDuration (toString n ++ "s") := by
  rw [IsDuration, toList_seconds, spanChunks_seconds]
  exact ⟨by simp, rfl⟩

section Numerals

open DecimalNumeral

variable {power? : Option (Bool × List Char)}

/-- A power of ten is measured with all of its digits. -/
theorem powerSize_powerChars (h : ∀ p ∈ power?, p.2 ≠ [] ∧ ∀ c ∈ p.2, c.isDigit = true) :
    powerSize isDecimalDigit (powerChars power?) = (powerChars power?).length := by
  cases power? with
  | none => rfl
  | some p =>
    obtain ⟨negative, ds⟩ := p
    obtain ⟨hne, hds⟩ := h _ rfl
    have hrun : runLength isDecimalDigit ds = ds.length := by
      simpa using runLength_digits hds endsDigits_nil
    have hlength : ds.length ≠ 0 := by simpa using hne
    cases negative <;> simp [powerChars, powerSize, hrun, hlength] <;> omega

variable {n : DecimalNumeral}

theorem chars_append (n : DecimalNumeral) :
    n.chars = n.whole ++ (fractionChars n.fraction ++ powerChars n.power?) := by
  rw [chars, List.append_assoc]

/-- What may stand behind the whole part of a numeral. -/
theorem behind_whole (fraction : List Char) (power? : Option (Bool × List Char)) :
    ∀ c ∈ (fractionChars fraction ++ powerChars power?).head?, c = '.' ∨ c = 'e' := by
  cases fraction with
  | cons => simp [fractionChars]
  | nil => cases power? <;> simp [fractionChars, powerChars]

/-- A decimal numeral does not look like a hexadecimal one. -/
theorem not_hexadecimal (h : n.IsProper) {c d : Char} {cs : List Char}
    (hcs : n.chars = c :: d :: cs) : d ≠ 'x' ∧ d ≠ 'X' := by
  rw [chars_append] at hcs
  cases hw : n.whole with
  | nil => exact absurd hw h.whole_ne_nil
  | cons c' whole =>
    rw [hw, List.cons_append] at hcs
    obtain ⟨-, hcs⟩ := List.cons.inj hcs
    cases whole with
    | nil =>
      have hd := behind_whole n.fraction n.power? d
        (by rw [← List.nil_append (fractionChars _ ++ _), hcs]; rfl)
      rcases hd with rfl | rfl <;> decide
    | cons d' whole =>
      obtain ⟨rfl, -⟩ := List.cons.inj hcs
      have hdigit := h.whole d' (by simp [hw])
      constructor <;> rintro rfl <;> cases hdigit

/-- What stands behind the whole part starts with a point only if there is a fraction. -/
theorem length_of_point {fraction cs : List Char} (h : ∀ c ∈ fraction, c.isDigit = true)
    (hcs : fractionChars fraction ++ powerChars power? = '.' :: cs) :
    (fractionChars fraction).length = runLength isDecimalDigit cs + 1 := by
  cases fraction with
  | cons d fraction =>
    obtain rfl : d :: fraction ++ powerChars power? = cs := (List.cons.inj hcs).2
    rw [runLength_digits h (endsDigits_powerChars _)]
    rfl
  | nil => cases power? <;> simp [fractionChars, powerChars] at hcs

/-- A decimal numeral is one number. -/
theorem numberSize?_chars (h : n.IsProper) : numberSize? n.chars = some n.chars.length := by
  have hwhole : runLength isDecimalDigit n.chars = n.whole.length := by
    rw [chars_append, runLength_digits h.whole (endsDigits_fractionChars n.fraction n.power?)]
  have hdrop : n.chars.drop n.whole.length = fractionChars n.fraction ++ powerChars n.power? := by
    rw [chars_append, List.drop_left]
  have hpos : n.whole.length ≠ 0 := by simpa using h.whole_ne_nil
  have hpower := powerSize_powerChars h.power
  have hdecimal : numberSize?.decimalSize? n.chars = some n.chars.length := by
    unfold numberSize?.decimalSize?
    simp only [hwhole, hdrop]
    have hlength : n.chars.length =
        n.whole.length + (fractionChars n.fraction).length + (powerChars n.power?).length := by
      simp [chars, Nat.add_assoc]
    have hbehind : n.chars.drop (n.whole.length + (fractionChars n.fraction).length) =
        powerChars n.power? := by
      rw [← List.drop_drop, hdrop, List.drop_left]
    split
    · rename_i digits hdot
      rw [length_of_point h.fraction hdot] at hbehind hlength
      rw [if_neg (by omega), if_neg (by omega), hbehind, hpower, hlength, Nat.add_assoc]
    · rename_i hdot
      cases hf : n.fraction with
      | cons d fraction => exact absurd (by rw [hf]; rfl) (hdot (d :: fraction ++ _))
      | nil =>
        rw [hf] at hbehind hlength
        rw [if_neg (by omega)]
        simp only [fractionChars, List.isEmpty_nil, if_true, List.length_nil] at hbehind hlength
        rw [hbehind, hpower, hlength]
  unfold numberSize?
  split
  · rename_i r hcs
    exact absurd rfl (not_hexadecimal h hcs).1
  · rename_i r hcs
    exact absurd rfl (not_hexadecimal h hcs).2
  · exact hdecimal

/-- No unit of time follows the digits of a decimal numeral. -/
theorem durationSize?_chars (h : n.IsProper) : durationSize? n.chars = none := by
  have hunit : TimeUnit.read? (fractionChars n.fraction ++ powerChars n.power?) = none := by
    have hhead := behind_whole n.fraction n.power?
    cases hcs : fractionChars n.fraction ++ powerChars n.power? with
    | nil => rfl
    | cons c cs =>
      rw [hcs] at hhead
      rcases hhead c rfl with rfl | rfl <;> rfl
  have hspan := spanDigits_append h.whole (endsDigits_fractionChars n.fraction n.power?)
  have hnone : Chunk.read? n.chars = none := by
    rw [chars_append, Chunk.read?, hspan]
    cases digitValues n.whole with
    | nil => rfl
    | cons d ds => simp only [hunit, Option.map_none]
  rw [durationSize?, spanChunks_of_none hnone]

end Numerals

/-- A decimal numeral is read as one number. -/
theorem number_lexes {k : Context} {n : DecimalNumeral} (h : n.IsProper) {s : String}
    (hs : s.toList = n.chars) : (Word.plain .number s).Lexes k k := by
  obtain ⟨c, cs, hc⟩ := List.exists_cons_of_ne_nil h.whole_ne_nil
  have hdigit : isDecimalDigit c = true :=
    isDecimalDigit_of_isDigit (h.whole c (by rw [hc]; exact List.mem_cons_self ..))
  obtain ⟨ds, hds⟩ : ∃ ds, s.toList = c :: ds := by
    rw [hs, DecimalNumeral.chars, hc]
    exact ⟨_, rfl⟩
  have hnumber := numberSize?_chars h
  have hduration := durationSize?_chars h
  rw [← hs, hds] at hnumber hduration
  have hvalue : String.ofList (c :: ds) = s := by rw [← hds, String.ofList_toList]
  refine Word.lexes_of_alone hds (takeStep_of_isDecimalDigit hdigit ?_)
  simp [numberChoice, isDigit, hdigit, hnumber, hduration, hvalue, Word.plain]

end PanelExport.Query
