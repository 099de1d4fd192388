import PanelExport.Proofs.Query.Words

/-!
# The words of a tree

Every word of a tree that can be printed is one token. Braces and brackets are closed again by the
words of the same node, so a tree starts and ends outside of them. The first word of a tree is none
that the parser would take for something else than a tree.

* `isName_of_mem`, `toLower_of_mem`: the words of the language.
* `Expr.words_lex`: the words of a tree are tokens.
* `lexemes_print`: the tokens of the text of a tree.
* `Expr.words_start`: the first word of a tree.
-/

namespace PanelExport.Query

/-! ## Names, operators and numbers -/

/-- The words of the language that a tree may start with. -/
def startWords : List String :=
  "nan" :: "inf" :: AggregateOp.all.map AggregateOp.name ++ signatures.map Signature.name

/-- The words of the language. -/
def languageWords : List String :=
  "bool" :: "by" :: "without" :: wordOperators.map BinaryOp.symbol ++ startWords

theorem mem_startWords_aggregation (op : AggregateOp) : op.name ∈ startWords := by
  have hop : op ∈ AggregateOp.all := by cases op <;> decide
  exact List.mem_append_left _ (List.mem_cons_of_mem _ (List.mem_cons_of_mem _
    (List.mem_map_of_mem hop)))

theorem mem_startWords_function {s : Signature} (h : s ∈ signatures) : s.name ∈ startWords :=
  List.mem_append_right _ (List.mem_map_of_mem h)

/-- The words of the language are names. -/
theorem isName_of_mem {s : String} (h : s ∈ languageWords) : IsName s := by
  have hall : ∀ s ∈ languageWords,
      (s.toList.head?.any startsMetric && s.toList.all continuesMetric) = true := by
    decide +kernel
  have hs := hall s h
  simp only [Bool.and_eq_true, Option.any_eq_true, List.all_eq_true] at hs
  exact ⟨hs.1, hs.2⟩

theorem isName_of_start {s : String} (h : s ∈ startWords) : IsName s :=
  isName_of_mem (List.mem_append_right _ h)

/-- The name of a metric is a name. -/
theorem IsMetricName.isName {s : String} (h : IsMetricName s) : IsName s where
  starts := by
    obtain ⟨c, hc, hstarts⟩ := h.starts
    exact ⟨c, hc, by simpa [startsMetric] using hstarts⟩
  continues := fun c hc => by simpa [continuesMetric] using h.continues c hc

theorem isName_function {name : String} {s : Signature} (h : signature? name = some s) :
    IsName name := by
  obtain ⟨hm, rfl⟩ := mem_signatures h
  exact isName_of_start (mem_startWords_function hm)

theorem isName_aggregation (op : AggregateOp) : IsName op.name :=
  isName_of_start (mem_startWords_aggregation op)

/-- Every operator is read as that operator, words and symbols alike. -/
theorem binaryOp_lexes (op : BinaryOp) : op.word.Lexes .outside .outside := by
  by_cases h : op ∈ wordOperators
  · have hmem : op.symbol ∈ languageWords := by
      simp only [languageWords, List.cons_append, List.mem_cons, List.mem_append]
      exact .inr (.inr (.inr (.inl (List.mem_map_of_mem h))))
    rw [BinaryOp.word, if_pos h]
    exact name_lexes (isName_of_mem hmem)
  · exact operator_lexes h

/-- A double without a sign is read as one token. -/
theorem double_lexes {x : Double} (h : x.isNegative = false) :
    (doubleWord x).Lexes .outside .outside := by
  cases x with
  | nan => exact name_lexes (isName_of_start (List.mem_cons_self ..))
  | infinite s =>
    obtain rfl : s = false := h
    exact name_lexes (isName_of_start (List.mem_cons_of_mem _ (List.mem_cons_self ..)))
  | finite s m e fits =>
    obtain rfl : s = false := h
    obtain ⟨n, hn⟩ := Double.exists_spelling fits
    exact number_lexes hn.proper hn.chars.symm

/-- A number is read as its sign and its digits. -/
theorem number_words_lex (value : Number) : LexRow .outside value.words .outside := by
  cases value with
  | whole n => exact .single (duration_lexes (isDuration_seconds n.natAbs))
  | double x =>
    rw [Number.words]
    split
    · rename_i h
      refine .cons (sign_lexes .minus) (.single (double_lexes ?_))
      cases x <;> simp_all [Double.isNegative, Double.neg]
    · rename_i h
      exact .single (double_lexes (by simpa using h))

/-- Items with commas between them leave the context as they found it. -/
theorem listed_lex {k : Context} {items : List (List Word)} (h : ∀ ws ∈ items, LexRow k ws k) :
    LexRow k (listed items) k := by
  induction items with
  | nil => exact .nil k
  | cons ws items ih =>
    obtain ⟨hws, hitems⟩ := List.forall_mem_cons.1 h
    cases items with
    | nil => exact hws
    | cons => exact hws.append (.cons comma_lexes (ih hitems))

/-- Items with commas between them, in parentheses. -/
theorem listed_parens_lex {items : List (List Word)}
    (h : ∀ ws ∈ items, LexRow .outside ws .outside) :
    LexRow .outside (.mark .leftParen :: listed items ++ [.mark .rightParen]) .outside :=
  .cons leftParen_lexes ((listed_lex h).append (.single rightParen_lexes))

/-- The words of a selector open a brace and close it. -/
theorem selector_words_lex {s : Selector} (h : s.name = "" ∨ IsMetricName s.name) :
    LexRow .outside s.words .outside := by
  have hmatchers : ∀ ws ∈ s.matchers.map Matcher.words, LexRow .inBraces ws .inBraces := by
    simp only [List.forall_mem_map]
    intro m _
    exact .cons (quoted_lexes _) (.cons (matchOp_lexes _) (.single (quoted_lexes _)))
  have hname : LexRow .outside (if s.name = "" then [] else [.name s.name]) .outside := by
    split
    · exact .nil _
    · rename_i hname
      exact .single (name_lexes (h.resolve_left hname).isName)
  refine hname.append ?_
  split
  · exact .nil _
  · exact .cons leftBrace_lexes ((listed_lex hmatchers).append (.single rightBrace_lexes))

theorem grouping_words_lex (g : Grouping) : LexRow .outside g.words .outside := by
  have hlabels : ∀ ws ∈ g.labels.map fun label => [Word.quoted label],
      LexRow .outside ws .outside := by
    simp only [List.forall_mem_map]
    exact fun label _ => .single (quoted_lexes label)
  refine .cons (name_lexes ?_) (listed_parens_lex hlabels)
  split <;> exact isName_of_mem (by simp [languageWords])

/-- The words of a tree are tokens. -/
theorem Expr.words_lex {e : Expr} (h : e.Printable) : LexRow .outside e.words .outside := by
  induction e using Expr.induction with
  | number p value => exact number_words_lex value
  | text p value => exact .single (quoted_lexes value)
  | selector s => exact selector_words_lex (printable_iff.1 h).1.2.2
  | matrix p s range =>
    obtain ⟨⟨-, -, hrange⟩, -⟩ := printable_iff.1 h
    have hselector : (selector s).Printable := h.child (List.mem_singleton_self _)
    exact (selector_words_lex (printable_iff.1 hselector).1.2.2).append
      (.cons leftBracket_lexes (.cons (duration_lexes hrange) (.single rightBracket_lexes)))
  | subquery p e range step? ih =>
    obtain ⟨⟨-, -, -, hrange, hstep⟩, -⟩ := printable_iff.1 h
    have hsteps : LexRow .inBrackets (step?.toList.map (.plain .duration)) .inBrackets := by
      cases step? with
      | none => exact .nil _
      | some step => exact .single (duration_lexes (hstep step rfl))
    rw [words, List.append_assoc]
    exact (ih (h.child (List.mem_singleton_self _))).append (.cons leftBracket_lexes
      (.cons (duration_lexes hrange)
        (.cons colon_lexes (hsteps.append (.single rightBracket_lexes)))))
  | call p function args returns ih =>
    obtain ⟨⟨⟨s, hsignature, -⟩, -⟩, -⟩ := printable_iff.1 h
    rw [words, wordsOfAll_eq]
    refine .cons (name_lexes (isName_function hsignature)) (listed_parens_lex ?_)
    simp only [List.forall_mem_map]
    exact fun arg ha => ih arg ha (h.child ha)
  | aggregate p op e parameter? g ih ihp =>
    have hargs : ∀ ws ∈ parameter?.toList.map words ++ [e.words], LexRow .outside ws .outside := by
      simp only [List.forall_mem_append, List.forall_mem_map, List.forall_mem_singleton,
        Option.mem_toList]
      exact ⟨fun a ha => ihp a ha (h.child (by simp [children, ha])),
        ih (h.child (by simp [children]))⟩
    rw [words, wordsOfParameter_eq, List.append_assoc]
    exact .cons (name_lexes (isName_aggregation op))
      ((grouping_words_lex g).append (listed_parens_lex hargs))
  | binary p op lhs rhs returnBool ihl ihr =>
    have hl := ihl (h.child (by simp [children]))
    have hr := ihr (h.child (by simp [children]))
    have hbool : LexRow .outside (if returnBool then [.name "bool"] else []) .outside := by
      split
      · exact .single (name_lexes (isName_of_mem (List.mem_cons_self ..)))
      · exact .nil _
    rw [words, List.append_assoc]
    exact hl.append (.cons (binaryOp_lexes op) (hbool.append hr))
  | unary p sign e ih =>
    exact .cons (sign_lexes sign) (ih (h.child (List.mem_singleton_self _)))
  | paren p e ih =>
    exact .cons leftParen_lexes
      ((ih (h.child (List.mem_singleton_self _))).append (.single rightParen_lexes))

/-- The tokens of the text of a tree. -/
theorem lexemes_print {e : Expr} (h : e.Printable) :
    ∃ ts, lexemes e.print = .ok ts ∧ Stand ts e.words := by
  obtain ⟨ps, hps, hstand⟩ := tokens_of_spaced (Expr.words_lex h) rfl 0
  exact ⟨tokensOf 0 ps, by simp [lexemes, pieces, Expr.print, hps, Except.map], hstand⟩

/-! ## First words -/

/-- A word that a tree may start with: it closes no list, and it says nothing about the operator
before it. -/
def Word.Starts (w : Word) : Prop :=
  w.kind ≠ .rightParen ∧ (w.kind = .identifier → w.value.toLower ∉ ["bool", "on", "ignoring"])

/-- What is neither a name nor a closing parenthesis starts an expression without being taken for
something else. -/
theorem starts_of_kind {w : Word} (h : w.kind ∉ [.identifier, .rightParen]) : w.Starts := by
  simp only [List.mem_cons, List.not_mem_nil, or_false, not_or] at h
  exact ⟨h.2, fun hi => absurd hi h.1⟩

/-- A name starts an expression unless it may be a modifier of an operator. -/
theorem starts_name {value : String} (h : value.toLower ∉ ["bool", "on", "ignoring"]) :
    (Word.name value).Starts :=
  ⟨by simp [Word.name, Word.plain], fun _ => h⟩

/-- The words that a tree may start with have no capital letters. -/
theorem toLower_of_mem {s : String} (h : s ∈ startWords) : s.toLower = s := by
  have hall : ∀ s ∈ startWords, s.toList.all (fun c => c.toLower == c) = true := by
    decide +kernel
  have hchars : ∀ c ∈ s.toList, c.toLower = c := by simpa using hall s h
  apply String.toList_injective
  calc s.toLower.toList = s.toList.map Char.toLower := String.toList_map
    _ = s.toList.map id := List.map_congr_left hchars
    _ = s.toList := List.map_id _

theorem starts_of_mem {s : String} (h : s ∈ startWords) : (Word.name s).Starts := by
  have hall : ∀ s ∈ startWords, s ∉ ["bool", "on", "ignoring"] := by decide +kernel
  exact starts_name (by rw [toLower_of_mem h]; exact hall s h)

theorem starts_doubleWord (x : Double) (h : x.isNegative = false) : (doubleWord x).Starts := by
  cases x with
  | nan => exact starts_of_mem (List.mem_cons_self ..)
  | infinite s =>
    obtain rfl : s = false := h
    exact starts_of_mem (List.mem_cons_of_mem _ (List.mem_cons_self ..))
  | finite => exact starts_of_kind (by simp [doubleWord, Word.plain])

/-- A selector starts with its name, or with a brace if it has none. -/
theorem selector_starts {s : Selector} (hw : s.WellFormed)
    (hn : s.name = "" ∨ IsMetricName s.name) : ∃ w ws, s.words = w :: ws ∧ w.Starts := by
  by_cases hname : s.name = ""
  · rw [Selector.words, if_pos hname, if_neg (hw.matchers_ne_nil hname)]
    exact ⟨_, _, rfl, starts_of_kind (by simp [Word.mark, Word.plain])⟩
  · rw [Selector.words, if_neg hname]
    refine ⟨_, _, rfl, starts_name fun hm => ?_⟩
    have hsubset : ["bool", "on", "ignoring"] ⊆ reservedWords := by decide
    exact (hn.resolve_left hname).free.1 (hsubset hm)

/-- The first word of a tree is one that a tree may start with. -/
theorem Expr.words_start {e : Expr} (h : e.Printable) : ∃ w ws, e.words = w :: ws ∧ w.Starts := by
  have sign (sign : Sign) : sign.word.Starts := starts_of_kind (by simp [Sign.word, Word.plain])
  induction e using Expr.induction with
  | number p value =>
    cases value with
    | whole n => exact ⟨_, _, rfl, starts_of_kind (by simp [Word.plain])⟩
    | double x =>
      by_cases hx : x.isNegative = true
      · exact ⟨_, _, by rw [words, Number.words, if_pos hx], sign .minus⟩
      · rw [Bool.not_eq_true] at hx
        exact ⟨_, _, by rw [words, Number.words, if_neg (by simp [hx])], starts_doubleWord x hx⟩
  | text p value => exact ⟨_, _, rfl, starts_of_kind (by simp [Word.quoted])⟩
  | selector s =>
    obtain ⟨⟨hw, -, hn⟩, -⟩ := printable_iff.1 h
    exact selector_starts hw hn
  | matrix p s range =>
    have hselector : (selector s).Printable := h.child (List.mem_singleton_self _)
    obtain ⟨⟨hw, -, hn⟩, -⟩ := printable_iff.1 hselector
    obtain ⟨w, ws, hws, hstarts⟩ := selector_starts hw hn
    exact ⟨w, _, by rw [words, hws, List.cons_append], hstarts⟩
  | subquery p e range step? ih =>
    obtain ⟨w, ws, hws, hstarts⟩ := ih (h.child (List.mem_singleton_self _))
    exact ⟨w, _, by rw [words, hws, List.cons_append, List.cons_append], hstarts⟩
  | call p function args returns _ =>
    obtain ⟨⟨⟨s, hsignature, -⟩, -⟩, -⟩ := printable_iff.1 h
    obtain ⟨hm, rfl⟩ := mem_signatures hsignature
    exact ⟨_, _, rfl, starts_of_mem (mem_startWords_function hm)⟩
  | aggregate p op e parameter? g _ _ =>
    exact ⟨_, _, rfl, starts_of_mem (mem_startWords_aggregation op)⟩
  | binary p op lhs rhs returnBool ihl _ =>
    obtain ⟨w, ws, hws, hstarts⟩ := ihl (h.child (by simp [children]))
    exact ⟨w, _, by rw [words, hws, List.cons_append, List.cons_append], hstarts⟩
  | unary p s e _ => exact ⟨_, _, rfl, sign s⟩
  | paren p e _ => exact ⟨_, _, rfl, starts_of_kind (by simp [Word.mark, Word.plain])⟩

end PanelExport.Query
