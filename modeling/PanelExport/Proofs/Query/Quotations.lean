import PanelExport.Query.Lexer

/-!
# Texts between quotes

What stands between two quotes, as the search for the closing one sees it and as it is decoded. The
search takes a backslash together with the character behind it, so an escaped body closes exactly at
the quote behind it, whatever follows.

* `closingQuote?_eq_some`, `closingBackquote?_eq_some`: where a text closes.
* `textChoice_eq_ok`: a text is a body between two quotes of one kind.
* `Spells.encloses`, `Spells.decode`: what is written for a text between quotes stands for it.
-/

namespace PanelExport.Query

variable {quote : Char} {cs body rest : List Char}

/-- A body of whole escapes and of characters that are no backslash, quote or newline. -/
inductive Escaped (quote : Char) : List Char → Prop where
  | nil : Escaped quote []
  | pair (c : Char) {cs : List Char} (others : Escaped quote cs) : Escaped quote ('\\' :: c :: cs)
  | plain {c : Char} {cs : List Char} (backslash : c ≠ '\\') (closing : c ≠ quote)
      (newline : c ≠ '\n') (others : Escaped quote cs) : Escaped quote (c :: cs)

theorem closingQuote?_cons {c : Char} (hc : c ≠ '\\') (cs : List Char) :
    closingQuote? quote (c :: cs) =
      if c = quote then some 1
      else if c = '\n' then none
      else (closingQuote? quote cs).map (· + 1) := by
  rw [closingQuote?]
  exact fun _ _ h => absurd h hc

theorem Escaped.closingQuote? (hq : quote ≠ '\\') (h : Escaped quote body) (rest : List Char) :
    closingQuote? quote (body ++ quote :: rest) = some (body.length + 1) := by
  induction h with
  | nil => rw [List.nil_append, closingQuote?_cons hq, if_pos rfl, List.length_nil]
  | pair c _ ih => simp [Query.closingQuote?, ih]
  | plain backslash closing newline _ ih =>
    rw [List.cons_append, closingQuote?_cons backslash, if_neg closing, if_neg newline, ih]
    rfl

/-- A text closes at the first quote behind an escaped body. -/
theorem closingQuote?_eq_some (hq : quote ≠ '\\') {n : Nat} :
    closingQuote? quote cs = some n ↔
      ∃ body rest, Escaped quote body ∧ cs = body ++ quote :: rest ∧ n = body.length + 1 := by
  constructor
  · intro h
    induction cs using closingQuote?.induct quote generalizing n with
    | case1 => cases h
    | case2 c cs ih =>
      rw [closingQuote?] at h
      obtain ⟨m, hm, rfl⟩ := Option.map_eq_some_iff.1 h
      obtain ⟨body, rest, hbody, rfl, rfl⟩ := ih hm
      exact ⟨'\\' :: c :: body, rest, .pair c hbody, rfl, rfl⟩
    | case3 cs hne =>
      rw [closingQuote?_cons hq, if_pos rfl] at h
      cases h
      exact ⟨[], cs, .nil, rfl, rfl⟩
    | case4 cs hne hc =>
      rw [closingQuote?_cons (by decide), if_neg hc, if_pos rfl] at h
      cases h
    | case5 c cs hne hc hnewline ih =>
      rw [closingQuote?, if_neg hc, if_neg hnewline] at h
      · obtain ⟨m, hm, rfl⟩ := Option.map_eq_some_iff.1 h
        obtain ⟨body, rest, hbody, rfl, rfl⟩ := ih hm
        refine ⟨c :: body, rest, .plain ?_ hc hnewline hbody, rfl, rfl⟩
        -- A backslash with something behind it would have been taken with it.
        rintro rfl
        cases body <;> exact hne _ _ rfl rfl
      · exact hne
  · rintro ⟨body, rest, hbody, rfl, rfl⟩
    exact hbody.closingQuote? hq rest

theorem closingBackquote?_eq_some {n : Nat} : closingBackquote? cs = some n ↔
    ∃ body rest, '\x60' ∉ body ∧ cs = body ++ '\x60' :: rest ∧ n = body.length + 1 := by
  constructor
  · intro h
    induction cs generalizing n with
    | nil => cases h
    | cons c cs ih =>
      rw [closingBackquote?] at h
      split at h
      · rename_i hc
        subst hc
        cases h
        exact ⟨[], cs, List.not_mem_nil, rfl, rfl⟩
      · rename_i hc
        obtain ⟨m, hm, rfl⟩ := Option.map_eq_some_iff.1 h
        obtain ⟨body, rest, hbody, rfl, rfl⟩ := ih hm
        exact ⟨c :: body, rest, by simp [hbody, Ne.symm hc], rfl, rfl⟩
  · rintro ⟨body, rest, hbody, rfl, rfl⟩
    induction body with
    | nil => rfl
    | cons c body ih =>
      obtain ⟨hc, hbody⟩ := not_or.1 (mt List.mem_cons.2 hbody)
      rw [List.cons_append, closingBackquote?, if_neg (Ne.symm hc), ih hbody]
      rfl

/-! ## The choice of a text -/

/-- A body that a quote of the kind before it closes. -/
inductive Encloses : Char → List Char → Prop where
  | back {body : List Char} (plain : '\x60' ∉ body) : Encloses '\x60' body
  | escaped {quote : Char} {body : List Char} (hq : quote = '"' ∨ quote = '\'')
      (escaped : Escaped quote body) : Encloses quote body

/-- What a body between quotes stands for. -/
def decode (quote : Char) (body : List Char) : List Char :=
  if quote = '\x60' then body else unescape body

theorem textChoice_eq_ok {k : Context} {c : Char} {step : Step} :
    textChoice k c cs = some (.ok step) ↔
      ∃ body rest, Encloses c body ∧ cs = body ++ c :: rest ∧
        step = ⟨some (.text, String.ofList (decode c body)), body.length + 1, k⟩ := by
  constructor
  · intro h
    unfold textChoice at h
    split at h
    · rename_i hc
      subst hc
      split at h
      · rename_i n hn
        cases h
        obtain ⟨body, rest, hbody, rfl, rfl⟩ := closingBackquote?_eq_some.1 hn
        exact ⟨body, rest, .back hbody, rfl, by simp [decode]⟩
      · cases h
    · rename_i hback
      split at h
      · rename_i hc
        split at h
        · rename_i n hn
          cases h
          have hq : c ≠ '\\' := by
            rintro rfl
            revert hc
            decide
          obtain ⟨body, rest, hbody, rfl, rfl⟩ := (closingQuote?_eq_some hq).1 hn
          exact ⟨body, rest, .escaped hc hbody, rfl, by simp [decode, hback]⟩
        · cases h
      · cases h
  · rintro ⟨body, rest, hbody, rfl, rfl⟩
    unfold textChoice
    cases hbody with
    | back hplain =>
      rw [if_pos rfl, closingBackquote?_eq_some.2 ⟨body, rest, hplain, rfl, rfl⟩]
      simp [decode]
    | escaped hq hescaped =>
      have hne : c ≠ '\x60' ∧ c ≠ '\\' := by
        rcases hq with rfl | rfl <;> decide
      rw [if_neg hne.1, if_pos hq, hescaped.closingQuote? hne.2]
      simp [decode, hne.1]

/-! ## Texts written between quotes -/

/-- The characters of a text between quotes: a backslash stands before a backslash and before the
quote, and a newline is written as an n behind one. -/
def escapeFor (quote : Char) : List Char → List Char
  | [] => []
  | c :: cs =>
    if c = '\\' ∨ c = quote then '\\' :: c :: escapeFor quote cs
    else if c = '\n' then '\\' :: 'n' :: escapeFor quote cs
    else c :: escapeFor quote cs

theorem escaped_escapeFor (quote : Char) (cs : List Char) : Escaped quote (escapeFor quote cs) := by
  induction cs with
  | nil => exact .nil
  | cons c cs ih =>
    rw [escapeFor]
    split
    · exact .pair c ih
    · rename_i hc
      rw [not_or] at hc
      split
      · exact .pair 'n' ih
      · rename_i hn
        exact .plain hc.1 hc.2 hn ih

theorem unescape_cons {c : Char} (hc : c ≠ '\\') (cs : List Char) :
    unescape (c :: cs) = c :: unescape cs := by
  rw [unescape]
  exact fun _ _ h => absurd h hc

/-- Neither the letters that an escape reads as something else nor a newline is a quote. -/
theorem unescape_escapeFor (hq : quote ∉ ['n', 't', '\n']) (cs : List Char) :
    unescape (escapeFor quote cs) = cs := by
  induction cs with
  | nil => rfl
  | cons c cs ih =>
    rw [escapeFor]
    split
    · rename_i hc
      have hplain : c ∉ ['n', 't', '\n'] := by
        rcases hc with rfl | rfl
        · decide
        · exact hq
      simp only [List.mem_cons, List.not_mem_nil, or_false, not_or] at hplain
      simp [unescape, ih, hplain]
    · rename_i hc
      rw [not_or] at hc
      split
      · rename_i hn
        simp [unescape, ih, hn]
      · rw [unescape_cons hc.1, ih]

/-- A body between quotes that spells a text: the text itself between back quotes, where it holds
none, or its escaped characters between other quotes. -/
inductive Spells (text : List Char) : Char → List Char → Prop where
  | back (plain : '\x60' ∉ text) : Spells text '\x60' text
  | escaped {quote : Char} (hq : quote = '"' ∨ quote = '\'') :
      Spells text quote (escapeFor quote text)

variable {text : List Char}

theorem Spells.encloses (h : Spells text quote body) : Encloses quote body := by
  cases h with
  | back plain => exact .back plain
  | escaped hq => exact .escaped hq (escaped_escapeFor quote text)

theorem Spells.decode (h : Spells text quote body) : decode quote body = text := by
  cases h with
  | back plain => rfl
  | escaped hq =>
    have hne : quote ≠ '\x60' ∧ quote ∉ ['n', 't', '\n'] := by
      rcases hq with rfl | rfl <;> decide
    rw [Query.decode, if_neg hne.1, unescape_escapeFor hne.2]

end PanelExport.Query
