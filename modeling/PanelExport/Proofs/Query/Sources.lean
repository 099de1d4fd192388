import PanelExport.Proofs.Outcome
import PanelExport.Proofs.Query.Lookahead

/-!
# The lexer keeps the text

The pieces of a text lie side by side and cover it from end to end. A piece is a blank, a comment
with the newline behind it, a text from quote to quote, or a lexeme whose source is its value.

* `Step.Form`, `takeStep_form`: the forms of one step.
* `takeStep_covers`: what one step takes.
* `takeStep_literal`, `literal_of_mem`: the numbers and durations among the tokens of a text.
* `Runs`, `tiles_of_piecesFrom`: the steps of a whole run, and what they take.
* `lossless_of_tiles`: the tokens with their places keep the text.
-/

namespace PanelExport.Query

/-- The form of what a step takes, with one rule for each choice of the lexer. -/
inductive Step.Form (k : Context) (c : Char) (cs : List Char) : Step → Prop where
  | blank (isBlank : isBlank c = true) : Step.Form k c cs ⟨none, 0, k⟩
  | comment (mark : c = '#') : Step.Form k c cs ⟨none, runLength (· ≠ '\n') cs + 1, k⟩
  | text {body rest : List Char} (encloses : Encloses c body) (closes : cs = body ++ c :: rest) :
      Step.Form k c cs ⟨some (.text, String.ofList (decode c body)), body.length + 1, k⟩
  | mark {step : Step} (chosen : markChoice k c = some (.ok step)) : Step.Form k c cs step
  | literal {kind : Kind} {size : Nat} (front : literal? (c :: cs) = some (kind, size)) :
      Step.Form k c cs ⟨some (kind, String.ofList ((c :: cs).take size)), size - 1, k⟩
  | name (noMark : markChoice k c = none)
      (starts : (startsName c || (k.braces == 0 && c == ':')) = true) :
      Step.Form k c cs
        ⟨some (.identifier, String.ofList (c :: cs.take (runLength (continuesIn k) cs))),
          runLength (continuesIn k) cs, k⟩
  | operator {op : String} (front : operator? (c :: cs) = some op) :
      Step.Form k c cs
        ⟨some (if 0 < k.braces ∧ op ∈ matcherTexts then Kind.matcher else .operator, op),
          op.length - 1, k⟩

/-- What a step takes off the front of a text: a blank, a comment, a text in quotes, or a lexeme
that stands for itself. -/
inductive Step.Covers (c : Char) (cs : List Char) : Step → Prop where
  | blank {k : Context} (isBlank : isBlank c = true) : Step.Covers c cs ⟨none, 0, k⟩
  | comment {k : Context} (mark : c = '#') :
      Step.Covers c cs ⟨none, runLength (· ≠ '\n') cs + 1, k⟩
  | text {k : Context} {body rest : List Char} (value : String) (mark : c ∈ quotes)
      (closes : cs = body ++ c :: rest) : Step.Covers c cs ⟨some (.text, value), body.length + 1, k⟩
  | plain {k : Context} {kind : Kind} {extra : Nat} (isPlain : kind ∉ [.text, .finish])
      (within : extra ≤ cs.length) :
      Step.Covers c cs ⟨some (kind, String.ofList (c :: cs.take extra)), extra, k⟩

variable {k : Context} {c : Char} {cs : List Char} {step : Step}

/-- A mark is a lexeme of one character, and only a brace or a bracket changes the context. -/
theorem markChoice_eq_ok (h : markChoice k c = some (.ok step)) :
    ∃ kind k', step = ⟨some (kind, String.singleton c), 0, k'⟩ ∧
      kind ∉ [.text, .finish, .number, .duration] ∧
      (c ∉ ['\x7b', '\x7d', '[', ']'] → k' = k) := by
  unfold markChoice at h
  dsimp only at h
  -- Braces and brackets are the marks that the last part leaves out.
  repeat' split at h
  all_goals cases h
  all_goals refine ⟨_, _, rfl, by decide, fun hc => ?_⟩
  all_goals first
    | rfl
    | exact absurd (by simp [*]) hc

theorem layoutChoice_eq_ok (h : layoutChoice k c cs = some (.ok step)) : step.Form k c cs := by
  unfold layoutChoice at h
  split at h
  · rename_i hc
    cases h
    exact .blank hc
  · split at h
    · rename_i hc
      cases h
      exact .comment hc
    · cases h

/-- Whatever the lexer takes has one of the forms. -/
theorem takeStep_form (h : takeStep k c cs = .ok step) : step.Form k c cs := by
  rw [takeStep_eq_ok] at h
  simp only [Option.or_eq_some_iff] at h
  rcases h with h | ⟨-, h | ⟨-, h | ⟨hmark, h | ⟨-, h | ⟨-, h⟩⟩⟩⟩⟩
  · exact layoutChoice_eq_ok h
  · obtain ⟨body, rest, hbody, hcs, rfl⟩ := textChoice_eq_ok.1 h
    exact .text hbody hcs
  · exact .mark h
  · obtain ⟨kind, size, hsize, rfl⟩ := numberChoice_eq_ok.1 h
    exact .literal hsize
  · rw [nameChoice_eq] at h
    split at h
    · rename_i hc
      cases h
      exact .name hmark hc
    · cases h
  · obtain ⟨op, hop, rfl⟩ := operatorChoice_eq_ok.1 h
    exact .operator hop

/-- An operator covers its own characters. -/
theorem operator_covers {op : String} (h : operator? (c :: cs) = some op) (k : Context)
    (kind : Kind) (hkind : kind ∉ [.text, .finish]) :
    Step.Covers c cs ⟨some (kind, op), op.length - 1, k⟩ := by
  have hnonempty : ∀ op ∈ operators, op.toList ≠ [] := by decide
  obtain ⟨hmem, rest, hrest⟩ := operator?_eq_some h
  obtain ⟨d, ds, hds⟩ := List.exists_cons_of_ne_nil (hnonempty op hmem)
  rw [hds] at hrest
  obtain ⟨rfl, rfl⟩ := List.cons.inj hrest
  have hop : op = String.ofList (d :: ds) := by rw [← hds, String.ofList_toList]
  have hplain : Step.Covers d (ds ++ rest)
      ⟨some (kind, String.ofList (d :: (ds ++ rest).take ds.length)), ds.length, k⟩ :=
    .plain hkind (by simp)
  rw [List.take_left] at hplain
  simpa [hop] using hplain

/-- What a step takes it takes from the front of the text. -/
theorem takeStep_covers (h : takeStep k c cs = .ok step) : step.Covers c cs := by
  cases takeStep_form h with
  | blank isBlank => exact .blank isBlank
  | comment mark => exact .comment mark
  | text encloses closes => exact .text _ (mem_quotes_of_encloses encloses) closes
  | mark chosen =>
    obtain ⟨kind, k', rfl, hkind, -⟩ := markChoice_eq_ok chosen
    have hmark : Step.Covers c cs ⟨some (kind, String.ofList (c :: cs.take 0)), 0, k'⟩ :=
      .plain (fun hk => hkind (List.mem_append_left [Kind.number, Kind.duration] hk)) (Nat.zero_le _)
    exact hmark
  | literal front =>
    obtain ⟨hpos, hle⟩ := literal?_bounds front
    obtain ⟨extra, rfl⟩ := Nat.exists_eq_add_one_of_ne_zero (Nat.ne_of_gt hpos)
    refine .plain ?_ (Nat.le_of_succ_le_succ hle)
    rcases literal?_kind front with ⟨rfl, -⟩ | ⟨rfl, -⟩ <;> decide
  | name _ _ => exact .plain (by decide) (runLength_le _ cs)
  | operator front => exact operator_covers front _ _ (by split <;> decide)

/-- A number or a duration that a step takes is the literal at the front of the text. -/
theorem takeStep_literal (h : takeStep k c cs = .ok step) {kind : Kind} {value : String}
    (ht : step.token? = some (kind, value)) (hk : kind = .number ∨ kind = .duration) :
    ∃ size, literal? (c :: cs) = some (kind, size) ∧
      value = String.ofList ((c :: cs).take size) := by
  cases takeStep_form h with
  | blank _ => cases ht
  | comment _ => cases ht
  | text _ _ =>
    cases ht
    exact absurd hk (by decide)
  | mark chosen =>
    obtain ⟨_, _, rfl, hkind, -⟩ := markChoice_eq_ok chosen
    cases ht
    exact absurd (by rcases hk with rfl | rfl <;> decide) hkind
  | literal front =>
    cases ht
    exact ⟨_, front, rfl⟩
  | name _ _ =>
    cases ht
    exact absurd hk (by decide)
  | operator _ =>
    cases ht
    split at hk <;> exact absurd hk (by decide)

/-! ## Runs -/

/-- The piece that a step makes of what it takes. -/
def Step.piece (step : Step) (source : List Char) : Piece :=
  match step.token? with
  | none => .layout source
  | some (kind, value) => .lexeme kind value source

theorem Step.piece_source (step : Step) (source : List Char) :
    (step.piece source).source = source := by
  unfold piece
  split <;> rfl

/-- The pieces of a text are the first one and those behind it. -/
theorem piecesFrom_cons (h : takeStep k c cs = .ok step) (pos : Nat) :
    piecesFrom k pos (c :: cs) =
      (piecesFrom step.context (pos + (c :: cs.take step.extra).length) (cs.drop step.extra)).map
        (step.piece (c :: cs.take step.extra) :: ·) := by
  rw [piecesFrom, h]
  dsimp only
  cases piecesFrom step.context _ (cs.drop step.extra) <;> rfl

/-- Where a step fails, the text has no pieces. -/
theorem piecesFrom_cons_error {cause : LexCause} (h : takeStep k c cs = .error cause) (pos : Nat) :
    piecesFrom k pos (c :: cs) = .error ⟨cause, pos⟩ := by
  rw [piecesFrom, h]

/-- A run of the lexer through a text to its end, where nothing is open, and the pieces that its
steps make. -/
inductive Runs : Context → List Char → List Piece → Prop where
  | finish {k : Context} (closed : k.unclosed? = none) : Runs k [] []
  | step {k : Context} {c : Char} {cs : List Char} {step : Step} {ps : List Piece}
      (taken : takeStep k c cs = .ok step) (others : Runs step.context (cs.drop step.extra) ps) :
      Runs k (c :: cs) (step.piece (c :: cs.take step.extra) :: ps)

/-- The pieces of a text come from a run of steps. -/
theorem runs_of_piecesFrom {pos : Nat} {ps : List Piece} (h : piecesFrom k pos cs = .ok ps) :
    Runs k cs ps := by
  induction k, pos, cs using piecesFrom.induct generalizing ps with
  | case1 k pos cause hu => simp [piecesFrom, hu] at h
  | case2 k pos hu =>
    simp only [piecesFrom, hu, Except.ok.injEq] at h
    rw [← h]
    exact .finish hu
  | case3 k pos c cs cause hs =>
    rw [piecesFrom_cons_error hs] at h
    cases h
  | case4 k pos c cs step hs source =>
    rename_i ih
    rw [piecesFrom_cons hs] at h
    obtain ⟨others, ho, rfl⟩ := exceptMap_eq_ok.1 h
    exact .step hs (ih ho)

/-- A number or a duration among the tokens of a text is the literal at the front of a part of the
text. -/
theorem literal_of_mem {pos : Nat} {ps : List Piece} (h : piecesFrom k pos cs = .ok ps) {t : Token}
    (ht : t ∈ tokensOf pos ps) (hk : t.kind = .number ∨ t.kind = .duration) :
    ∃ rest size, rest <:+ cs ∧ literal? rest = some (t.kind, size) ∧
      t.value.toList = rest.take size := by
  replace h := runs_of_piecesFrom h
  induction h generalizing pos with
  | finish => cases ht
  | @step k c cs step ps taken _ ih =>
    have hothers : t ∈ tokensOf (pos + (c :: cs.take step.extra).length) ps →
        ∃ rest size, rest <:+ c :: cs ∧ literal? rest = some (t.kind, size) ∧
          t.value.toList = rest.take size := by
      intro ht
      obtain ⟨rest, size, hrest, hliteral⟩ := ih ht
      exact ⟨rest, size, hrest.trans ((List.drop_suffix _ _).trans (List.suffix_cons c cs)), hliteral⟩
    cases htoken : step.token? with
    | none =>
      simp only [Step.piece, htoken, tokensOf] at ht
      exact hothers ht
    | some token =>
      simp only [Step.piece, htoken, tokensOf, List.mem_cons] at ht
      rcases ht with rfl | ht
      · obtain ⟨size, hsize, hvalue⟩ := takeStep_literal taken htoken hk
        exact ⟨c :: cs, size, List.suffix_rfl, hsize, by rw [hvalue, String.toList_ofList]⟩
      · exact hothers ht

/-- A piece that is whole: a blank, a comment with its newline, a text with both quotes, or a lexeme
that stands for itself. -/
inductive Piece.IsWhole : Piece → Prop where
  | blank {c : Char} (isBlank : isBlank c = true) : IsWhole (.layout [c])
  | comment {body : List Char} (plain : '\n' ∉ body) : IsWhole (.layout ('#' :: body ++ ['\n']))
  | text {quote : Char} (body : List Char) (value : String) (mark : quote ∈ quotes) :
      IsWhole (.lexeme .text value (quote :: body ++ [quote]))
  | plain {kind : Kind} {source : List Char} (nonempty : source ≠ [])
      (isPlain : kind ∉ [.text, .finish]) : IsWhole (.lexeme kind (String.ofList source) source)

/-- No piece is empty. -/
theorem Piece.IsWhole.source_ne_nil {p : Piece} (h : p.IsWhole) : p.source ≠ [] := by
  cases h with
  | plain nonempty _ => exact nonempty
  | _ => exact List.cons_ne_nil _ _

/-- Pieces side by side. Only the last comment may go without a newline. -/
inductive Tiles : List Char → List Piece → Prop where
  | done : Tiles [] []
  | cons {p : Piece} {cs : List Char} {ps : List Piece} (first : p.IsWhole) (others : Tiles cs ps) :
      Tiles (p.source ++ cs) (p :: ps)
  | lastComment {body : List Char} (plain : '\n' ∉ body) :
      Tiles ('#' :: body) [.layout ('#' :: body)]

theorem Tiles.eq_nil {ps : List Piece} (h : Tiles cs ps) (hcs : cs = []) : ps = [] := by
  cases h with
  | done => rfl
  | cons first _ => exact absurd (List.append_eq_nil_iff.1 hcs).1 first.source_ne_nil
  | lastComment _ => cases hcs

/-- A comment goes up to the next newline, or to the end of the text. -/
theorem comment_cases (cs : List Char) : ∃ body, '\n' ∉ body ∧
    runLength (· ≠ '\n') cs = body.length ∧ (cs = body ∨ ∃ rest, cs = body ++ '\n' :: rest) := by
  induction cs with
  | nil => exact ⟨[], List.not_mem_nil, rfl, .inl rfl⟩
  | cons c cs ih =>
    by_cases hc : c = '\n'
    · subst hc
      exact ⟨[], List.not_mem_nil, by simp [runLength], .inr ⟨cs, rfl⟩⟩
    · obtain ⟨body, hbody, hrun, hcs⟩ := ih
      refine ⟨c :: body, by simp [hbody, Ne.symm hc], ?_, ?_⟩
      · unfold runLength at hrun ⊢
        rw [List.takeWhile_cons, if_pos (by simpa using hc), List.length_cons, hrun,
          List.length_cons]
      · rcases hcs with rfl | ⟨rest, rfl⟩
        · exact .inl rfl
        · exact .inr ⟨rest, rfl⟩

theorem take_closed (body : List Char) (c : Char) (rest : List Char) :
    (body ++ c :: rest).take (body.length + 1) = body ++ [c] := by
  rw [← List.singleton_append, ← List.append_assoc, List.take_left' (by simp)]

theorem tiles_comment {ps : List Piece} (h : Tiles (cs.drop (runLength (· ≠ '\n') cs + 1)) ps) :
    Tiles ('#' :: cs) (.layout ('#' :: cs.take (runLength (· ≠ '\n') cs + 1)) :: ps) := by
  obtain ⟨body, hbody, hrun, rfl | ⟨rest, rfl⟩⟩ := comment_cases cs
  · rw [hrun] at h ⊢
    rw [h.eq_nil (List.drop_eq_nil_of_le (Nat.le_succ _)), List.take_of_length_le (Nat.le_succ _)]
    exact .lastComment hbody
  · rw [hrun] at h ⊢
    have htile := Tiles.cons (.comment hbody) (by simpa using h)
    rw [take_closed]
    simpa [Piece.source] using htile

theorem tiles_text {body rest : List Char} {value : String} {ps : List Piece} (hc : c ∈ quotes)
    (h : Tiles ((body ++ c :: rest).drop (body.length + 1)) ps) :
    Tiles (c :: (body ++ c :: rest))
      (.lexeme .text value (c :: (body ++ c :: rest).take (body.length + 1)) :: ps) := by
  have htile := Tiles.cons (.text body value hc) (by simpa using h)
  rw [take_closed]
  simpa [Piece.source] using htile

theorem tiles_plain {kind : Kind} {extra : Nat} {ps : List Piece} (hkind : kind ∉ [.text, .finish])
    (h : Tiles (cs.drop extra) ps) : Tiles (c :: cs)
      (.lexeme kind (String.ofList (c :: cs.take extra)) (c :: cs.take extra) :: ps) := by
  have htile := Tiles.cons (.plain (List.cons_ne_nil c (cs.take extra)) hkind) h
  rwa [Piece.source, List.cons_append, List.take_append_drop] at htile

/-- The pieces of a text tile it. -/
theorem tiles_of_piecesFrom {pos : Nat} {ps : List Piece} (h : piecesFrom k pos cs = .ok ps) :
    Tiles cs ps := by
  replace h := runs_of_piecesFrom h
  induction h with
  | finish => exact .done
  | step taken _ htiles =>
    cases takeStep_covers taken with
    | blank hblank => exact .cons (.blank hblank) (by simpa using htiles)
    | comment hmark =>
      subst hmark
      exact tiles_comment htiles
    | text value hmark hcloses =>
      subst hcloses
      exact tiles_text hmark htiles
    | plain hkind hwithin => exact tiles_plain hkind htiles

/-! ## Spans -/

/-- A token and the place behind its last character. -/
structure Span where
  token : Token
  stop : Nat

/-- A place is inside a span. -/
def Span.Covers (s : Span) (i : Nat) : Prop := s.token.pos ≤ i ∧ i < s.stop

/-- The spans of some pieces that stand behind `pos` characters. -/
def spansOf (pos : Nat) : List Piece → List Span
  | [] => []
  | .layout source :: ps => spansOf (pos + source.length) ps
  | .lexeme kind value source :: ps =>
    ⟨⟨kind, value, pos⟩, pos + source.length⟩ :: spansOf (pos + source.length) ps

theorem map_token_spansOf (pos : Nat) (ps : List Piece) :
    (spansOf pos ps).map Span.token = tokensOf pos ps := by
  induction ps generalizing pos with
  | nil => rfl
  | cons p ps ih =>
    cases p with
    | layout source => exact ih _
    | lexeme kind value source => rw [spansOf, List.map_cons, ih, tokensOf]

/-- No span starts before the place that the spans start at. -/
theorem le_of_mem_spansOf {pos : Nat} {ps : List Piece} {s : Span} (h : s ∈ spansOf pos ps) :
    pos ≤ s.token.pos := by
  induction ps generalizing pos with
  | nil => cases h
  | cons p ps ih =>
    cases p with
    | layout source => exact Nat.le_trans (Nat.le_add_right _ _) (ih h)
    | lexeme kind value source =>
      rcases List.mem_cons.1 h with rfl | h
      · exact Nat.le_refl _
      · exact Nat.le_trans (Nat.le_add_right _ _) (ih h)

/-- A comment from the mark at `start` up to `stop`, behind the next newline or at the end of the
text, and outside of all spans. -/
structure IsComment (cs : List Char) (spans : List Span) (start stop : Nat) : Prop where
  mark : cs[start]? = some '#'
  nonempty : start < stop
  plain : ∀ i, start ≤ i → i + 1 < stop → cs[i]? ≠ some '\n'
  ends : stop = cs.length ∨ cs[stop - 1]? = some '\n'
  outside : ∀ s ∈ spans, ∀ i, start ≤ i → i < stop → ¬ s.Covers i

/-- A character from `pos` on belongs to a span, is a blank or belongs to a comment. -/
def Accounted (cs : List Char) (pos : Nat) (spans : List Span) (i : Nat) : Prop :=
  (∃ s ∈ spans, s.Covers i) ∨ (∃ c ∈ cs[i]?, isBlank c = true) ∨
    ∃ start stop, IsComment cs spans start stop ∧ pos ≤ start ∧ start ≤ i ∧ i < stop

/-- The spans of a text, each behind the one before it, and what is outside of them. -/
structure Lossless (cs : List Char) (spans : List Span) : Prop where
  nonempty : ∀ s ∈ spans, s.token.pos < s.stop
  ordered : spans.Pairwise fun s t => s.stop ≤ t.token.pos
  within : ∀ s ∈ spans, s.stop ≤ cs.length
  unfinished : ∀ s ∈ spans, s.token.kind ≠ .finish
  plain : ∀ s ∈ spans, s.token.kind ≠ .text →
    s.token.value.toList = cs.extract s.token.pos s.stop
  quoted : ∀ s ∈ spans, s.token.kind = .text →
    ∃ quote ∈ quotes, ∃ body, cs.extract s.token.pos s.stop = quote :: body ++ [quote]
  accounted : ∀ i < cs.length, Accounted cs 0 spans i

/-- Each span ends where the next one starts or before it. -/
theorem spansOf_ordered (pos : Nat) (ps : List Piece) :
    (spansOf pos ps).Pairwise fun s t => s.stop ≤ t.token.pos := by
  induction ps generalizing pos with
  | nil => exact .nil
  | cons p ps ih =>
    cases p with
    | layout source => exact ih _
    | lexeme kind value source => exact .cons (fun _ ht => le_of_mem_spansOf ht) (ih _)

variable {text : List Char} {pos : Nat} {ps : List Piece}

/-- A span of a text and the whole piece that stands there. -/
theorem exists_piece_of_mem (h : Tiles cs ps) (ht : text.drop pos = cs) :
    ∀ s ∈ spansOf pos ps, ∃ source, (Piece.lexeme s.token.kind s.token.value source).IsWhole ∧
      text.extract s.token.pos s.stop = source ∧ s.stop = s.token.pos + source.length ∧
      s.stop ≤ text.length := by
  induction h generalizing pos with
  | done => nofun
  | lastComment _ => nofun
  | @cons p cs ps first others ih =>
    have hrest : text.drop (pos + p.source.length) = cs := by
      rw [← List.drop_drop, ht, List.drop_left]
    cases p with
    | layout source => exact ih hrest
    | lexeme kind value source =>
      rintro s hs
      rcases List.mem_cons.1 hs with rfl | hs
      · refine ⟨source, first, ?_, rfl, ?_⟩
        · simp only [List.extract_eq_take_drop, ht, Nat.add_sub_cancel_left, Piece.source,
            List.take_left]
        · have hlength := congrArg List.length ht
          have hpos := List.length_pos_iff.2 first.source_ne_nil
          simp only [List.length_drop, List.length_append, Piece.source] at hlength hpos ⊢
          omega
      · exact ih hrest s hs

namespace Accounted

variable {spans : List Span} {i n : Nat}

/-- What is accounted for behind a layout is accounted for with the layout in front. -/
theorem later (h : Accounted text (pos + n) spans i) : Accounted text pos spans i := by
  rcases h with h | h | ⟨start, stop, hcomment, hstart, hi⟩
  · exact .inl h
  · exact .inr (.inl h)
  · exact .inr (.inr ⟨start, stop, hcomment, Nat.le_of_add_right_le hstart, hi⟩)

theorem behind {s : Span} (hs : s.stop ≤ pos + n) (h : Accounted text (pos + n) spans i) :
    Accounted text pos (s :: spans) i := by
  rcases h with ⟨t, ht, hi⟩ | h | ⟨start, stop, hcomment, hstart, hi⟩
  · exact .inl ⟨t, List.mem_cons_of_mem _ ht, hi⟩
  · exact .inr (.inl h)
  · refine .inr (.inr ⟨start, stop, { hcomment with outside := ?_ }, ?_, hi⟩)
    · rintro t ht j hstartj hj
      rcases List.mem_cons.1 ht with rfl | ht
      · exact fun hcovers => by have := hcovers.2; omega
      · exact hcomment.outside t ht j hstartj hj
    · exact Nat.le_of_add_right_le hstart

end Accounted

theorem getElem?_of_drop (ht : text.drop pos = cs) (j : Nat) : text[pos + j]? = cs[j]? := by
  rw [← ht, List.getElem?_drop]

/-- A comment in front of what is left of a text, with all spans behind it. -/
theorem isComment_of_drop {body ending : List Char} {spans : List Span} (hbody : '\n' ∉ body)
    (ht : text.drop pos = '#' :: body ++ ending ++ cs)
    (hending : ending = ['\n'] ∨ ending = [] ∧ cs = [])
    (hspans : ∀ s ∈ spans, pos + ('#' :: body ++ ending).length ≤ s.token.pos) :
    IsComment text spans pos (pos + ('#' :: body ++ ending).length) := by
  have hlength := congrArg List.length ht
  simp only [List.length_drop, List.length_append, List.length_cons] at hlength hspans ⊢
  refine ⟨?_, by omega, fun i hi hstop => ?_, ?_, fun s hs i _ hi hcovers => ?_⟩
  · have hmark := getElem?_of_drop ht 0
    simpa using hmark
  · have hending : ending.length ≤ 1 := by rcases hending with rfl | ⟨rfl, -⟩ <;> simp
    obtain ⟨j, rfl⟩ := Nat.exists_eq_add_of_le hi
    have hj : j < ('#' :: body).length := by
      rw [List.length_cons]
      omega
    rw [getElem?_of_drop ht j, List.append_assoc, List.getElem?_append_left hj]
    intro hnewline
    have hmem := List.mem_of_getElem? hnewline
    simp [hbody] at hmem
  · rcases hending with rfl | ⟨rfl, rfl⟩
    · right
      have hlast := getElem?_of_drop ht (body.length + 1)
      rw [List.append_assoc, List.getElem?_append_right (by simp)] at hlast
      simpa [Nat.add_assoc] using hlast
    · left
      simp only [List.length_nil] at hlength ⊢
      omega
  · have hstart := hspans s hs
    have hcovered := hcovers.1
    omega

/-- Every character stands in a span or in some layout. -/
theorem accounted_of_tiles (h : Tiles cs ps) (ht : text.drop pos = cs) :
    ∀ i, pos ≤ i → i < text.length → Accounted text pos (spansOf pos ps) i := by
  induction h generalizing pos with
  | done =>
    intro i hpos hi
    have := List.drop_eq_nil_iff.1 ht
    omega
  | @lastComment body hbody =>
    intro i hpos hi
    have hcomment : IsComment text [] pos (pos + ('#' :: body ++ []).length) :=
      isComment_of_drop hbody (by simpa using ht) (.inr ⟨rfl, rfl⟩) nofun
    refine .inr (.inr ⟨pos, _, hcomment, Nat.le_refl _, hpos, ?_⟩)
    have hlength := congrArg List.length ht
    simp only [List.length_drop, List.length_cons, List.append_nil] at hlength ⊢
    omega
  | @cons p cs ps first others ih =>
    intro i hpos hi
    have hrest : text.drop (pos + p.source.length) = cs := by
      rw [← List.drop_drop, ht, List.drop_left]
    have hlater := ih hrest i
    cases first with
    | @blank c hblank =>
      by_cases hin : i = pos
      · subst hin
        refine .inr (.inl ⟨c, ?_, hblank⟩)
        have hc := getElem?_of_drop ht 0
        simpa [Piece.source] using hc
      · exact (hlater (by simp only [Piece.source, List.length_singleton]; omega) hi).later
    | @comment body hbody =>
      by_cases hin : i < pos + ('#' :: body ++ ['\n']).length
      · have hcomment : IsComment text (spansOf (pos + ('#' :: body ++ ['\n']).length) ps) pos _ :=
          isComment_of_drop hbody ht (.inl rfl) fun s hs => le_of_mem_spansOf hs
        exact .inr (.inr ⟨pos, _, hcomment, Nat.le_refl _, hpos, hin⟩)
      · exact (hlater (Nat.le_of_not_lt hin) hi).later
    | @text quote body value hmark =>
      by_cases hin : i < pos + (quote :: body ++ [quote]).length
      · exact .inl ⟨_, List.mem_cons_self .., hpos, hin⟩
      · exact (hlater (Nat.le_of_not_lt hin) hi).behind (Nat.le_refl _)
    | @plain kind source hnonempty hplain =>
      by_cases hin : i < pos + source.length
      · exact .inl ⟨_, List.mem_cons_self .., hpos, hin⟩
      · exact (hlater (Nat.le_of_not_lt hin) hi).behind (Nat.le_refl _)

theorem Piece.IsWhole.lexeme {kind : Kind} {value : String} {source : List Char}
    (h : (Piece.lexeme kind value source).IsWhole) :
    kind ≠ .finish ∧ (kind ≠ .text → value.toList = source) ∧
      (kind = .text → ∃ quote ∈ quotes, ∃ body, source = quote :: body ++ [quote]) := by
  cases h with
  | text body value mark =>
    exact ⟨by decide, fun hkind => absurd rfl hkind, fun _ => ⟨_, mark, body, rfl⟩⟩
  | plain nonempty isPlain =>
    refine ⟨?_, fun _ => String.toList_ofList, ?_⟩
    · rintro rfl
      exact isPlain (by decide)
    · rintro rfl
      exact absurd (by decide) isPlain

/-- Tokens stand at increasing places, the end of the text last. -/
theorem Lossless.increasing {spans : List Span} (h : Lossless text spans) :
    (spans.map (fun s => s.token.pos) ++ [text.length]).Pairwise (· < ·) := by
  refine List.pairwise_append.2 ⟨List.pairwise_map.2 ?_, List.pairwise_singleton .., ?_⟩
  · exact h.ordered.imp_of_mem fun hs _ hst => Nat.lt_of_lt_of_le (h.nonempty _ hs) hst
  · intro pos hpos n hn
    obtain ⟨s, hs, rfl⟩ := List.mem_map.1 hpos
    rw [List.mem_singleton.1 hn]
    exact Nat.lt_of_lt_of_le (h.nonempty s hs) (h.within s hs)

/-- Pieces that tile a text lose nothing of it. -/
theorem lossless_of_tiles (h : Tiles text ps) : Lossless text (spansOf 0 ps) := by
  have hpiece := exists_piece_of_mem h List.drop_zero
  refine ⟨fun s hs => ?_, spansOf_ordered 0 ps, fun s hs => ?_, fun s hs => ?_, fun s hs hkind => ?_,
    fun s hs hkind => ?_, fun i hi => accounted_of_tiles h List.drop_zero i (Nat.zero_le _) hi⟩
  all_goals obtain ⟨source, hwhole, hsource, hstop, hlength⟩ := hpiece s hs
  · have := List.length_pos_iff.2 hwhole.source_ne_nil
    simp only [Piece.source] at this
    omega
  · exact hlength
  · exact hwhole.lexeme.1
  · rw [hsource]
    exact hwhole.lexeme.2.1 hkind
  · rw [hsource]
    exact hwhole.lexeme.2.2 hkind

/-! ## Texts -/

/-- The place of a fault is in the text or at its end. -/
theorem piecesFrom_error_le {e : LexError} (h : piecesFrom k pos cs = .error e) :
    e.pos ≤ pos + cs.length := by
  induction k, pos, cs using piecesFrom.induct with
  | case1 k pos cause hu =>
    simp only [piecesFrom, hu, Except.error.injEq] at h
    rw [← h]
    exact Nat.le_add_right _ _
  | case2 k pos hu => simp [piecesFrom, hu] at h
  | case3 k pos c cs cause hs =>
    rw [piecesFrom_cons_error hs, Except.error.injEq] at h
    rw [← h]
    exact Nat.le_add_right _ _
  | case4 k pos c cs step hs source =>
    rename_i ih
    rw [piecesFrom_cons hs, exceptMap_eq_error] at h
    have hle := ih h
    have hsource : source.length = (c :: cs.take step.extra).length := rfl
    simp only [hsource, List.length_cons, List.length_take, List.length_drop] at hle ⊢
    omega

/-- The lexer's loop, for at most some rounds. -/
def scanWithin : Nat → Context → Nat → List Char → Option (Except LexError (List Piece))
  | _, k, pos, [] =>
    some (match k.unclosed? with
      | some cause => .error ⟨cause, pos⟩
      | none => .ok [])
  | 0, _, _, _ :: _ => none
  | rounds + 1, k, pos, c :: cs =>
    match takeStep k c cs with
    | .error cause => some (.error ⟨cause, pos⟩)
    | .ok step =>
      let source := c :: cs.take step.extra
      (scanWithin rounds step.context (pos + source.length) (cs.drop step.extra)).map
        (·.map (step.piece source :: ·))

/-- A round takes at least one character, so the loop ends. -/
theorem scanWithin_eq {rounds : Nat} (h : cs.length ≤ rounds) (k : Context) (pos : Nat) :
    scanWithin rounds k pos cs = some (piecesFrom k pos cs) := by
  induction rounds generalizing k pos cs with
  | zero =>
    rw [List.eq_nil_of_length_eq_zero (Nat.le_zero.1 h)]
    cases hu : k.unclosed? <;> simp [scanWithin, piecesFrom, hu]
  | succ rounds ih =>
    cases cs with
    | nil => cases hu : k.unclosed? <;> simp [scanWithin, piecesFrom, hu]
    | cons c cs =>
      rw [scanWithin]
      split
      · rename_i cause hs
        rw [piecesFrom_cons_error hs]
      · rename_i step hs
        dsimp only
        rw [piecesFrom_cons hs, ih, Option.map_some]
        · simp only [List.length_cons, List.length_drop] at h ⊢
          omega

/-- The tokens of a text grow with their places, the mark at the end being the last and the only one
of its kind, and their spans keep the text: what is outside of them is blank or a comment. A fault
is in the text or at its end, and the loop ends after as many rounds as the text has characters. -/
theorem tokenize_lossless (text : String) :
    (∀ ts, tokenize text = .ok ts → ∃ spans, ts = spans.map Span.token ++ [.finish text.length] ∧
      (ts.map Token.pos).Pairwise (· < ·) ∧ Lossless text.toList spans) ∧
    (∀ e, tokenize text = .error e → e.pos ≤ text.length) ∧
    scanWithin text.length .outside 0 text.toList = some (pieces text.toList) := by
  refine ⟨fun ts h => ?_, fun e h => ?_, scanWithin_eq (Nat.le_of_eq String.length_toList) _ _⟩
  · obtain ⟨ts', hlex, rfl⟩ := exceptMap_eq_ok.1 h
    obtain ⟨ps, hps, rfl⟩ := exceptMap_eq_ok.1 hlex
    have hlossless := lossless_of_tiles (tiles_of_piecesFrom hps)
    refine ⟨spansOf 0 ps, by rw [map_token_spansOf], ?_, hlossless⟩
    have hincreasing := hlossless.increasing
    rw [String.length_toList] at hincreasing
    rw [← map_token_spansOf, List.map_append, List.map_map]
    exact hincreasing
  · have hpieces := piecesFrom_error_le (exceptMap_eq_error.1 (exceptMap_eq_error.1 h))
    rwa [Nat.zero_add, String.length_toList] at hpieces

end PanelExport.Query
