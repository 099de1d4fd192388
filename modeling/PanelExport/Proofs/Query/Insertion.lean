import PanelExport.Proofs.Query.Sources

/-!
# Texts put into a text

A run of the lexer over the front of a text is a row of steps, each of which ends before what is
left for later. Such a run comes to the same place in the same context if what was left is exchanged
for something that goes on with no lexeme. The tokens before that place may change: a number and a
name become a duration when the point behind them goes.

* `Scans`: the lexer comes to a place, in a context.
* `Scans.exchange`: what stands behind the place does not matter for coming there.
* `tokenize_quotation`: a text between quotes is one token wherever a token may start.
-/

namespace PanelExport.Query

/-- The lexer takes some pieces off the front of a text, and stands in front of the rest. -/
inductive Scans : Context → List Char → List Piece → Context → List Char → Prop where
  | here (k : Context) (cs : List Char) : Scans k cs [] k cs
  | step {k k' : Context} {c : Char} {cs rest : List Char} {step : Step} {ps : List Piece}
      (taken : takeStep k c cs = .ok step) (within : step.extra ≤ cs.length)
      (others : Scans step.context (cs.drop step.extra) ps k' rest) :
      Scans k (c :: cs) (step.piece (c :: cs.take step.extra) :: ps) k' rest

variable {k k' : Context} {cs rest : List Char} {ps : List Piece}

theorem Scans.trans {k'' : Context} {qs : List Piece} {rest' : List Char}
    (h : Scans k cs ps k' rest) (h' : Scans k' rest qs k'' rest') :
    Scans k cs (ps ++ qs) k'' rest' := by
  induction h with
  | here => exact h'
  | step taken within _ ih => exact .step taken within (ih h')

/-- What was taken and what is left make up the text. -/
theorem Scans.sources (h : Scans k cs ps k' rest) : (ps.map Piece.source).flatten ++ rest = cs := by
  induction h with
  | here => rfl
  | @step k k' c cs rest step ps taken within others ih =>
    rw [List.map_cons, Step.piece_source, List.flatten_cons, List.append_assoc, ih,
      List.cons_append, List.take_append_drop]

theorem Scans.piecesFrom (h : Scans k cs ps k' rest) (pos : Nat) :
    piecesFrom k pos cs =
      (Query.piecesFrom k' (pos + (cs.length - rest.length)) rest).map (ps ++ ·) := by
  induction h generalizing pos with
  | here =>
    rw [Nat.sub_self, Nat.add_zero]
    cases Query.piecesFrom _ pos _ <;> rfl
  | @step k k' c cs rest step ps taken within others ih =>
    have hrest : rest.length ≤ (cs.drop step.extra).length := by
      rw [← others.sources, List.length_append]
      exact Nat.le_add_left _ _
    rw [piecesFrom_cons taken, ih]
    have hpos : pos + (c :: cs.take step.extra).length +
        ((cs.drop step.extra).length - rest.length) = pos + ((c :: cs).length - rest.length) := by
      simp only [List.length_cons, List.length_take, List.length_drop] at hrest ⊢
      omega
    rw [hpos]
    cases Query.piecesFrom k' _ rest <;> rfl

/-- Only braces and brackets change the context. -/
theorem context_of_takeStep {c : Char} {step : Step} (h : takeStep k c cs = .ok step)
    (hc : c ∉ ['\x7b', '\x7d', '[', ']']) : step.context = k := by
  cases takeStep_form h with
  | mark chosen =>
    obtain ⟨_, k', rfl, -, hk⟩ := markChoice_eq_ok chosen
    exact hk hc
  | _ => rfl

/-- Layout does not change the context. -/
theorem context_of_layout {c : Char} {step : Step} (h : takeStep k c cs = .ok step)
    (ht : step.token? = none) : step.context = k := by
  refine context_of_takeStep h fun hc => ?_
  cases takeStep_covers h with
  | blank isBlank =>
    have hall : ['\x7b', '\x7d', '[', ']'].all (!PanelExport.isBlank ·) = true := by decide +kernel
    simpa [isBlank] using List.all_eq_true.1 hall c hc
  | comment mark =>
    subst mark
    revert hc
    decide
  | _ => cases ht

/-- The first step of a run over a stretch of text ends in the stretch. -/
theorem Scans.within {c : Char} {a : List Char} {n : Nat} (h : Scans k (cs.drop n) ps k' rest)
    (hn : n ≤ cs.length) (hcs : c :: cs = a ++ rest) :
    ∃ a', a = c :: a' ∧ cs = a' ++ rest ∧ n ≤ a'.length := by
  have hrest := congrArg List.length h.sources
  have hlength := congrArg List.length hcs
  simp only [List.length_append, List.length_drop, List.length_cons] at hrest hlength
  cases a with
  | nil =>
    rw [List.length_nil] at hlength
    omega
  | cons d a =>
    obtain ⟨rfl, rfl⟩ := List.cons.inj hcs
    rw [List.length_cons] at hlength
    exact ⟨a, rfl, rfl, by omega⟩

theorem Scans.context_eq {a : List Char} (h : Scans k cs ps k' rest) (hcs : cs = a ++ rest)
    (ha : ∀ c ∈ a, c ∉ ['\x7b', '\x7d', '[', ']']) : k' = k := by
  induction h generalizing a with
  | here => rfl
  | step taken within others ih =>
    obtain ⟨a', rfl, rfl, hextra⟩ := others.within within hcs
    obtain ⟨hc, ha'⟩ := List.forall_mem_cons.1 ha
    rw [ih (List.drop_append_of_le_length hextra) fun d hd => ha' d (List.mem_of_mem_drop hd),
      context_of_takeStep taken hc]

/-- A row of chunks in front of what goes on with no lexeme is one token. -/
theorem Scans.duration {a : List Char} (h : durationSize? a = some a.length) (k : Context)
    (hr : EndsLexeme rest) : ∃ ps, Scans k (a ++ rest) ps k rest := by
  have hread := read?_ne_none_of_duration h
  cases a with
  | nil => exact ⟨[], .here k rest⟩
  | cons c a =>
    have hsize : durationSize? (c :: (a ++ rest)) = some (c :: a).length := by
      rw [← List.cons_append, durationSize?_append _ hr, h]
    have htaken := takeStep_of_isDecimalDigit (isDecimalDigit_of_read? hread)
      (numberChoice_eq_ok (k := k).2 ⟨_, _, literal?_of_duration hsize, rfl⟩)
    have hrest : Scans k ((a ++ rest).drop ((c :: a).length - 1)) [] k rest := by
      simpa using Scans.here k rest
    exact ⟨_, .step htaken (by simp) hrest⟩

/-- What stands behind a place does not matter for coming there, as long as it goes on with no
lexeme. -/
theorem Scans.exchange {a b : List Char} (h : Scans k cs ps k' b) (hcs : cs = a ++ b)
    (hr : EndsLexeme rest) : ∃ ps', Scans k (a ++ rest) ps' k' rest := by
  induction h generalizing a with
  | here k cs =>
    obtain rfl : a = [] := List.append_left_eq_self.1 hcs.symm
    exact ⟨[], .here k rest⟩
  | @step k k' c cs b step ps taken within others ih =>
    by_cases hwhole : durationSize? a = some a.length
    · -- The numbers and names of the stretch are durations now, and left the context as it is.
      have hbrackets : ['\x7b', '\x7d', '[', ']'].all (!isWord ·) = true := by decide +kernel
      have hquiet : ∀ d ∈ a, d ∉ ['\x7b', '\x7d', '[', ']'] := fun d hd hmem => by
        simpa [isWord_of_duration hwhole d hd] using List.all_eq_true.1 hbrackets d hmem
      rw [(Scans.step taken within others).context_eq hcs hquiet]
      exact Scans.duration hwhole k hr
    · obtain ⟨a', rfl, rfl, hextra⟩ := others.within within hcs
      have halone : takeStep k c a' = .ok step :=
        takeStep_cut taken hextra fun hnone => durationSize?_cut_none hnone hwhole
      obtain ⟨qs, hqs⟩ := ih (List.drop_append_of_le_length hextra)
      rw [← List.drop_append_of_le_length hextra] at hqs
      have hle : step.extra ≤ (a' ++ rest).length := by
        rw [List.length_append]
        exact Nat.le_trans hextra (Nat.le_add_right _ _)
      exact ⟨_, .step (takeStep_append halone hextra hr) hle hqs⟩

/-! ## Texts between quotes -/

theorem tokensOf_append (pos : Nat) (ps qs : List Piece) : tokensOf pos (ps ++ qs) =
    tokensOf pos ps ++ tokensOf (pos + (ps.map Piece.source).flatten.length) qs := by
  induction ps generalizing pos with
  | nil => rfl
  | cons p ps ih =>
    cases p <;> simp [tokensOf, ih, Piece.source, Nat.add_assoc]

variable {s : String} {quote : Char} {body : List Char}

theorem scans_spells (h : Spells s.toList quote body) (k : Context) (b : List Char) :
    Scans k (quote :: body ++ [quote] ++ b) [.lexeme .text s (quote :: body ++ [quote])] k b := by
  have hdrop : (body ++ quote :: b).drop (body.length + 1) = b := by simp
  have hscan := Scans.step (takeStep_spells h k b) (by simp) (hdrop ▸ Scans.here k b)
  simp only [Step.piece, take_closed] at hscan
  simpa using hscan

/-- A text between quotes, alone, is one token. Put into a text at a place to which the lexer comes,
inside or outside of braces, it is one token there, and the lexer goes on behind it in the context
of that place. -/
theorem tokenize_quotation (h : Spells s.toList quote body) :
    tokenize (String.ofList (quote :: body ++ [quote])) =
        .ok [⟨.text, s, 0⟩, .finish (quote :: body ++ [quote]).length] ∧
      ∀ (a b : List Char) (ps : List Piece) (k : Context), Scans .outside (a ++ b) ps k b →
        ∃ qs, (qs.map Piece.source).flatten = a ∧
          lexemes (String.ofList (a ++ (quote :: body ++ [quote]) ++ b)) =
            (piecesFrom k (a.length + (quote :: body ++ [quote]).length) b).map fun rs =>
              tokensOf 0 qs ++ ⟨.text, s, a.length⟩ ::
                tokensOf (a.length + (quote :: body ++ [quote]).length) rs := by
  generalize hlit : quote :: body ++ [quote] = lit
  have hscan : ∀ k b, Scans k (lit ++ b) [.lexeme .text s lit] k b := fun k b =>
    hlit ▸ scans_spells h k b
  constructor
  · have hpieces := (hscan .outside []).piecesFrom 0
    have hend : ∀ pos, piecesFrom .outside pos [] = .ok [] := fun pos => by
      rw [piecesFrom]
      rfl
    rw [List.append_nil, hend] at hpieces
    rw [tokenize, lexemes, pieces, String.toList_ofList, hpieces, String.length_ofList]
    rfl
  · intro a b ps k hab
    have hends : EndsLexeme (lit ++ b) := by
      rw [← hlit]
      exact endsLexeme_cons (breaks_of_mem_quotes (mem_quotes_of_encloses h.encloses)) _
    obtain ⟨qs, hqs⟩ := hab.exchange rfl hends
    have hsources : (qs.map Piece.source).flatten = a := List.append_cancel_right hqs.sources
    have hpieces := (hqs.trans (hscan k b)).piecesFrom 0
    have hlength : 0 + ((a ++ (lit ++ b)).length - b.length) = a.length + lit.length := by
      simp only [List.length_append]
      omega
    refine ⟨qs, hsources, ?_⟩
    rw [hlength] at hpieces
    rw [lexemes, pieces, String.toList_ofList, List.append_assoc, hpieces]
    cases piecesFrom k (a.length + lit.length) b with
    | error e => rfl
    | ok rs =>
      simp [Except.map, tokensOf_append, tokensOf, hsources]

theorem tokenize_quotation_braces :
    let body := ['a', '\\', '"', '\\', 'n']
    let lit := '"' :: body ++ ['"']
    Spells "a\"\n".toList '"' body ∧
      Scans .outside (['\x7b'] ++ ['\x7d']) [.lexeme .leftBrace "\x7b" ['\x7b']] ⟨1, 0⟩ ['\x7d'] ∧
      tokenize (String.ofList lit) = .ok [⟨.text, "a\"\n", 0⟩, .finish 7] ∧
      ∃ qs, (qs.map Piece.source).flatten = ['\x7b'] ∧
        lexemes (String.ofList (['\x7b'] ++ lit ++ ['\x7d'])) =
          (piecesFrom ⟨1, 0⟩ 8 ['\x7d']).map fun rs =>
            tokensOf 0 qs ++ ⟨.text, "a\"\n", 1⟩ :: tokensOf 8 rs := by
  have hspells : Spells "a\"\n".toList '"' ['a', '\\', '"', '\\', 'n'] := .escaped (.inl rfl)
  have htaken : takeStep .outside '\x7b' ['\x7d'] = .ok ⟨some (.leftBrace, "\x7b"), 0, ⟨1, 0⟩⟩ := rfl
  have hscan : Scans .outside (['\x7b'] ++ ['\x7d']) [.lexeme .leftBrace "\x7b" ['\x7b']] ⟨1, 0⟩
      ['\x7d'] := .step htaken (Nat.zero_le _) (.here _ _)
  obtain ⟨halone, hinserted⟩ := tokenize_quotation hspells
  exact ⟨hspells, hscan, halone, hinserted ['\x7b'] ['\x7d'] _ _ hscan⟩

end PanelExport.Query
