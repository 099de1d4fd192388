import PanelExport.Proofs.Query.Alike
import PanelExport.Proofs.Query.Insertion

/-!
# Layout does not matter

Blanks and comments separate lexemes and mean nothing else. The lexemes of a text, each behind the
one before it with some layout in between, are the lexemes of the text that they make up: each of
them is what the lexer takes where it stands alone, and layout goes on with no lexeme.

* `LaidOut`: a row of lexemes with layout around them.
* `lexRow_of_piecesFrom`: the lexemes of a text, each taken alone.
* `scans_of_laidOut`: a row of lexemes that was laid out gives the same row again.
* `parse_laidOut`: the tokens and the tree of a text that was laid out anew.
-/

namespace PanelExport.Query

/-- Blanks, and comments with the newlines behind them. -/
inductive IsLayout : List Char → Prop where
  | nil : IsLayout []
  | blank {c : Char} {cs : List Char} (isBlank : isBlank c = true) (others : IsLayout cs) :
      IsLayout (c :: cs)
  | comment {body cs : List Char} (plain : '\n' ∉ body) (others : IsLayout cs) :
      IsLayout ('#' :: body ++ '\n' :: cs)

/-- Lexemes with layout behind each of them, which only the last one may go without. -/
inductive Gapped : List (List Char) → List Char → Prop where
  | nil : Gapped [] []
  | cons {source gap cs : List Char} {sources : List (List Char)} (layout : IsLayout gap)
      (apart : sources ≠ [] → gap ≠ []) (others : Gapped sources cs) :
      Gapped (source :: sources) (source ++ (gap ++ cs))

/-- Lexemes with layout around them. -/
def LaidOut (sources : List (List Char)) (text : List Char) : Prop :=
  ∃ lead cs, IsLayout lead ∧ Gapped sources cs ∧ text = lead ++ cs

/-- What stands in a span of a text. -/
def Span.source (text : List Char) (s : Span) : List Char := text.extract s.token.pos s.stop

/-! ## The lexemes of a text -/

/-- A lexeme as a word. -/
def Piece.word? : Piece → Option Word
  | .layout _ => none
  | .lexeme kind value source => some ⟨kind, value, source⟩

variable {k k' : Context} {cs rest text : List Char} {pos : Nat} {ps : List Piece} {w : Word}
  {ws : List Word}

theorem stand_tokensOf (pos : Nat) (ps : List Piece) :
    Stand (tokensOf pos ps) (ps.filterMap Piece.word?) := by
  induction ps generalizing pos with
  | nil => rfl
  | cons p ps ih =>
    cases p with
    | layout source => exact ih _
    | lexeme kind value source => exact congrArg ((kind, value) :: ·) (ih _)

theorem map_source_spansOf (h : (ps.map Piece.source).flatten = text.drop pos) :
    (spansOf pos ps).map (Span.source text) = (ps.filterMap Piece.word?).map Word.source := by
  induction ps generalizing pos with
  | nil => rfl
  | cons p ps ih =>
    rw [List.map_cons, List.flatten_cons] at h
    have hrest : (ps.map Piece.source).flatten = text.drop (pos + p.source.length) := by
      rw [← List.drop_drop, ← h, List.drop_left]
    cases p with
    | layout source => exact ih hrest
    | lexeme kind value source =>
      refine congrArg₂ List.cons ?_ (ih hrest)
      simp [Span.source, List.extract_eq_take_drop, ← h, Piece.source]

theorem Tiles.sources (h : Tiles cs ps) : (ps.map Piece.source).flatten = cs := by
  induction h with
  | done => rfl
  | cons _ _ ih => rw [List.map_cons, List.flatten_cons, ih]
  | lastComment _ => simp [Piece.source]

/-- A lexeme ends in the text that it is taken from. -/
theorem extra_le_of_token {c : Char} {step : Step} {token : Kind × String}
    (h : takeStep k c cs = .ok step) (ht : step.token? = some token) : step.extra ≤ cs.length := by
  cases takeStep_covers h with
  | text value mark closes => simp [closes]
  | plain isPlain within => exact within
  | _ => cases ht

/-- Every lexeme of a text is what the lexer takes. -/
theorem lexRow_of_piecesFrom (h : piecesFrom k pos cs = .ok ps) :
    ∃ k', LexRow k (ps.filterMap Piece.word?) k' ∧ k'.unclosed? = none := by
  replace h := runs_of_piecesFrom h
  induction h with
  | finish closed => exact ⟨_, .nil _, closed⟩
  | @step k c cs step ps hs _ ih =>
    obtain ⟨k', hrow, hclosed⟩ := ih
    cases ht : step.token? with
    | none =>
      rw [context_of_layout hs ht] at hrow
      refine ⟨k', ?_, hclosed⟩
      simp only [Step.piece, ht, List.filterMap_cons, Piece.word?]
      exact hrow
    | some token =>
      have hle := extra_le_of_token hs ht
      have halone := takeStep_take hs hle
      refine ⟨k', ?_, hclosed⟩
      simp only [Step.piece, ht, List.filterMap_cons, Piece.word?]
      refine .cons (Word.lexes_of_alone rfl ?_) hrow
      rw [halone, List.length_take_of_le hle, ← ht]

/-! ## Laying lexemes out -/

theorem IsLayout.endsLexeme {gap : List Char} (h : IsLayout gap) (hrest : gap = [] → rest = []) :
    EndsLexeme (gap ++ rest) := by
  cases h with
  | nil =>
    rw [hrest rfl]
    exact endsLexeme_nil
  | blank isBlank _ => exact endsLexeme_cons (breaks_of_isBlank isBlank) _
  | comment _ _ => exact endsLexeme_cons breaks_comment _

theorem scans_layout {gap : List Char} (h : IsLayout gap) (k : Context) (rest : List Char) :
    ∃ ps, Scans k (gap ++ rest) ps k rest ∧ ps.filterMap Piece.word? = [] := by
  induction h with
  | nil => exact ⟨[], .here k rest, rfl⟩
  | @blank c cs isBlank _ ih =>
    obtain ⟨ps, hps, hwords⟩ := ih
    have htaken : takeStep k c (cs ++ rest) = .ok ⟨none, 0, k⟩ := by
      simp [takeStep, layoutChoice, isBlank]
    exact ⟨_, .step htaken (Nat.zero_le _) hps, hwords⟩
  | @comment body cs plain _ ih =>
    obtain ⟨ps, hps, hwords⟩ := ih
    have hall : ∀ c ∈ body, decide (c ≠ '\n') = true := fun c hc =>
      decide_eq_true fun e => plain (e ▸ hc)
    have hrun : runLength (· ≠ '\n') (body ++ '\n' :: (cs ++ rest)) = body.length := by
      rw [runLength, List.takeWhile_append_of_pos hall]
      simp
    have htaken : takeStep k '#' (body ++ '\n' :: (cs ++ rest)) =
        .ok ⟨none, body.length + 1, k⟩ := by
      have hblank : isBlank '#' = false := by decide +kernel
      rw [takeStep, layoutChoice, hblank, hrun]
      rfl
    have hscan := Scans.step htaken (by simp) (by simpa using hps)
    rw [take_closed] at hscan
    refine ⟨.layout ('#' :: (body ++ ['\n'])) :: ps, ?_, hwords⟩
    simpa only [List.cons_append, List.append_assoc, Step.piece] using hscan

theorem scans_word (h : w.Lexes k k') (hr : EndsLexeme rest) :
    Scans k (w.source ++ rest) [.lexeme w.kind w.value w.source] k' rest := by
  obtain ⟨c, cs, hsource, htake⟩ := h
  have halone := htake [] endsWord_nil
  rw [List.append_nil] at halone
  have htaken := takeStep_append halone (Nat.le_refl _) hr
  rw [hsource]
  have hscan := Scans.step htaken (by simp) (.here k' _)
  simpa [Step.piece] using hscan

/-- A row of lexemes with layout between them is read as the row. -/
theorem scans_of_gapped (h : LexRow k ws k') (hg : Gapped (ws.map Word.source) cs) :
    ∃ ps, Scans k cs ps k' [] ∧ ps.filterMap Piece.word? = ws := by
  induction h generalizing cs with
  | nil k =>
    cases hg
    exact ⟨[], .here k [], rfl⟩
  | @cons k k₁ k₂ w ws first others ih =>
    obtain _ | ⟨layout, apart, hothers⟩ := hg
    rename_i gap cs
    obtain ⟨ps, hps, hwords⟩ := ih hothers
    obtain ⟨ls, hls, hempty⟩ := scans_layout layout k₁ cs
    have hends : EndsLexeme (gap ++ cs) := by
      refine layout.endsLexeme fun hgap => ?_
      have hnil := Classical.not_not.1 fun hne => apart hne hgap
      rw [hnil] at hothers
      cases hothers
      rfl
    refine ⟨_, (scans_word first hends).trans (hls.trans hps), ?_⟩
    simp [Piece.word?, hempty, hwords]

theorem scans_of_laidOut (h : LexRow k ws k') (hl : LaidOut (ws.map Word.source) cs) :
    ∃ ps, Scans k cs ps k' [] ∧ ps.filterMap Piece.word? = ws := by
  obtain ⟨lead, cs, hlead, hgapped, rfl⟩ := hl
  obtain ⟨ls, hls, hempty⟩ := scans_layout hlead k cs
  obtain ⟨ps, hps, hwords⟩ := scans_of_gapped h hgapped
  exact ⟨_, hls.trans hps, by rw [List.filterMap_append, hempty, hwords, List.nil_append]⟩

/-- A text's lexemes, laid out anew, are the lexemes of the new text. -/
theorem pieces_of_laidOut {ps : List Piece} (h : pieces text = .ok ps)
    (hl : LaidOut ((spansOf 0 ps).map (Span.source text)) cs) :
    ∃ qs, pieces cs = .ok qs ∧ qs.filterMap Piece.word? = ps.filterMap Piece.word? := by
  obtain ⟨k', hrow, hclosed⟩ := lexRow_of_piecesFrom h
  rw [map_source_spansOf (tiles_of_piecesFrom h).sources] at hl
  obtain ⟨qs, hscan, hwords⟩ := scans_of_laidOut hrow hl
  refine ⟨qs, ?_, hwords⟩
  rw [pieces, hscan.piecesFrom, piecesFrom, hclosed]
  simp [Except.map]

/-- A text's lexemes with other layout between them make up a text with the same kinds and values of
tokens, which is an expression just if the text was one, whatever limit there is on nesting; then
the two trees differ in their places alone. -/
theorem parse_laidOut {text : String} {ts : List Token} (h : tokenize text = .ok ts) :
    ∃ ps, pieces text.toList = .ok ps ∧
      ts = (spansOf 0 ps).map Span.token ++ [.finish text.length] ∧
      ∀ text' : String,
        LaidOut ((spansOf 0 ps).map (Span.source text.toList)) text'.toList →
          (∃ us, tokenize text' = .ok us ∧ us.map Token.content = ts.map Token.content) ∧
          ∀ limit, (parse text' limit).toOption.map Expr.unplaced =
            (parse text limit).toOption.map Expr.unplaced := by
  obtain ⟨ts, hlex, rfl⟩ := exceptMap_eq_ok.1 h
  obtain ⟨ps, hps, rfl⟩ := exceptMap_eq_ok.1 hlex
  refine ⟨ps, hps, by rw [map_token_spansOf], fun text' hl => ?_⟩
  obtain ⟨qs, hqs, hwords⟩ := pieces_of_laidOut hps hl
  have halike : Alike (tokensOf 0 qs) (tokensOf 0 ps) := by
    refine (stand_tokensOf 0 qs).trans ?_
    rw [hwords]
    exact (stand_tokensOf 0 ps).symm
  have hlex' : lexemes text' = .ok (tokensOf 0 qs) := by rw [lexemes, hqs, Except.map]
  refine ⟨⟨_, by rw [tokenize, hlex', Except.map], ?_⟩, fun limit => ?_⟩
  · rw [List.map_append, List.map_append, halike]
    rfl
  · rw [parse, parse, hlex, hlex']
    exact parseTokens_unplaced limit halike

theorem parse_laidOut_comment :
    tokenize "-x" = .ok [⟨.operator, "-", 0⟩, ⟨.identifier, "x", 1⟩, .finish 2] ∧
    LaidOut [['-'], ['x']] " -#x\nx\t".toList ∧
    (∃ us, tokenize " -#x\nx\t" = .ok us ∧
      us.map Token.content = [(.operator, "-"), (.identifier, "x"), (.finish, "")]) ∧
    (parse " -#x\nx\t").toOption.map Expr.unplaced =
      (parse "-x").toOption.map Expr.unplaced := by
  have hscan : Scans .outside ['-', 'x']
      [.lexeme .operator "-" ['-'], .lexeme .identifier "x" ['x']] .outside [] :=
    have hsign : takeStep .outside '-' ['x'] = .ok ⟨some (.operator, "-"), 0, .outside⟩ := rfl
    have hname : takeStep .outside 'x' [] = .ok ⟨some (.identifier, "x"), 0, .outside⟩ := rfl
    .step hsign (Nat.zero_le _) (.step hname (Nat.zero_le _) (.here _ _))
  have hpieces : pieces "-x".toList =
      .ok [.lexeme .operator "-" ['-'], .lexeme .identifier "x" ['x']] := by
    have htext : "-x".toList = ['-', 'x'] := rfl
    rw [htext, pieces, hscan.piecesFrom, piecesFrom]
    rfl
  have htokens : tokenize "-x" = .ok [⟨.operator, "-", 0⟩, ⟨.identifier, "x", 1⟩, .finish 2] := by
    rw [tokenize, lexemes, hpieces]
    rfl
  have hlaid : LaidOut [['-'], ['x']] " -#x\nx\t".toList := by
    refine ⟨[' '], ['-', '#', 'x', '\n', 'x', '\t'], .blank (by decide) .nil, ?_, rfl⟩
    have hplain : '\n' ∉ ['x'] := by decide
    have hcomment : IsLayout ['#', 'x', '\n'] := .comment hplain .nil
    have htab : IsLayout ['\t'] := .blank (by decide) .nil
    exact .cons hcomment (fun _ => by decide) (.cons htab (absurd rfl) .nil)
  obtain ⟨ps, hps, -, hall⟩ := parse_laidOut htokens
  cases hpieces.symm.trans hps
  obtain ⟨⟨us, hus, hcontent⟩, hparse⟩ := hall " -#x\nx\t" hlaid
  exact ⟨htokens, hlaid, ⟨us, hus, hcontent⟩, hparse callLimit⟩

end PanelExport.Query
