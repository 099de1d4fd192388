import PanelExport.Proofs.Query.Nodes

/-!
# Tokens that were moved

The parsers decide by the kinds and the values of tokens. Where the tokens stand only goes into the
places of the tree and of the faults, and nothing goes on with an expression that a comma or a
closing parenthesis stands behind. So what is read of a row of tokens is read of the same tokens at
other places too, with such a tail behind them and within another limit on the open calls, if that
is not reached; and the trees differ in their places alone.

* `Continued`: a row of tokens at other places, with a tail behind it.
* `Agree`: where one parser gives something, the other gives the like of it or reaches its limit.
* `separated_agree`, `suffixes_agree`, `climb_agree`: the loops, by induction on the tokens.
* `levels_agree`: what is read within one limit is read within any other one, or that is reached.
* `parseTokens_alike`: whole rows of tokens.
-/

namespace PanelExport.Query

/-- What a parser may know of a token. -/
def Token.content (t : Token) : Kind × String := (t.kind, t.value)

/-- Two rows of tokens that differ in their places alone. -/
def Alike (ts us : List Token) : Prop := ts.map Token.content = us.map Token.content

theorem Alike.symm {ts us : List Token} (h : Alike ts us) : Alike us ts := Eq.symm h

/-- The tokens of a row at other places, with a tail behind them. -/
def Continued (tail ts us : List Token) : Prop := ∃ vs, us = vs ++ tail ∧ Alike ts vs

namespace Continued

variable {tail ts us : List Token} {t : Token}

theorem of_alike (h : Alike ts us) (tail : List Token) : Continued tail ts (us ++ tail) :=
  ⟨us, rfl, h⟩

/-- Where the row is at its end, only the tail is left. -/
theorem nil_left (h : Continued tail [] us) : us = tail := by
  obtain ⟨vs, rfl, hs⟩ := h
  rw [List.map_eq_nil_iff.1 (Eq.symm hs), List.nil_append]

/-- The first tokens of the two rows have one content, and the others go on alike. -/
theorem cons_left (h : Continued tail (t :: ts) us) :
    ∃ u us', us = u :: us' ∧ t.content = u.content ∧ Continued tail ts us' := by
  obtain ⟨vs, rfl, hs⟩ := h
  cases vs with
  | nil => cases hs
  | cons v vs =>
    obtain ⟨hc, hs⟩ := List.cons.inj hs
    exact ⟨v, vs ++ tail, rfl, hc, vs, rfl, hs⟩

end Continued

/-- What does not look at the place of a token is the same for tokens of one content. -/
theorem apply_eq {β : Type} {p : Token → β}
    (hp : ∀ kind value m n, p ⟨kind, value, m⟩ = p ⟨kind, value, n⟩) {t u : Token}
    (h : t.content = u.content) : p t = p u := by
  obtain ⟨kind, value, m⟩ := t
  obtain ⟨kind', value', n⟩ := u
  obtain ⟨rfl, rfl⟩ := Prod.mk.inj h
  exact hp kind value m n

theorem kind_eq {t u : Token} (h : t.content = u.content) : t.kind = u.kind := (Prod.mk.inj h).1

theorem value_eq {t u : Token} (h : t.content = u.content) : t.value = u.value := (Prod.mk.inj h).2

/-! ## Parsers that agree -/

section

variable {α β γ δ : Type} {m n : Nat} {tail : List Token}

/-- Where a check passes within the full limit, it does so within another limit, and what it is on
the other side looks the same. Otherwise the other limit is too small, on both sides. -/
def ChecksAgree (view : α → γ) (w x y : Except Fault α) : Prop :=
  ∀ a, w = .ok a →
    (x = .ok a ∧ ∃ b, y = .ok b ∧ view a = view b) ∨
      (x = fail .tooDeep 0 ∧ y = fail .tooDeep 0)

/-- Where a parser gives something within the full limit, it gives the same within another limit,
and on other tokens something that looks the same and leaves the same tokens with their tail.
Otherwise the other limit is too small, for those tokens as well. -/
def Agree (tail : List Token) (view : α → γ) (w x : Except Fault (Parsed α m))
    (y : Except Fault (Parsed α n)) : Prop :=
  ∀ p, w = .ok p →
    (x = .ok p ∧ ∃ q, y = .ok q ∧ view p.value = view q.value ∧ Continued tail p.rest q.rest) ∨
      (x = fail .tooDeep 0 ∧ y = fail .tooDeep 0)

namespace Agree

variable {view : α → γ} {m' n' : Nat}

theorem ok {p : Parsed α m} {q : Parsed α n} (hv : view p.value = view q.value)
    (hr : Continued tail p.rest q.rest) : Agree tail view (.ok p) (.ok p) (.ok q) := by
  rintro _ ⟨⟩
  exact .inl ⟨rfl, q, rfl, hv, hr⟩

theorem error {fault : Fault} {x : Except Fault (Parsed α m)} {y : Except Fault (Parsed α n)} :
    Agree tail view (.error fault) x y := nofun

/-- A parser takes at least one token. -/
theorem nil {w x : Except Fault (Parsed α ([] : List Token).length)}
    {y : Except Fault (Parsed α n)} : Agree tail view w x y :=
  fun p _ => absurd p.shorter (Nat.not_lt_zero _)

theorem tooDeep {w : Except Fault (Parsed α m)} :
    Agree tail view w (fail .tooDeep 0) (fail .tooDeep 0 : Except Fault (Parsed α n)) :=
  fun _ _ => .inr ⟨rfl, rfl⟩

/-- Where nothing changes but the places and the tail, no limit is too small. -/
theorem reads {w : Except Fault (Parsed α m)} {y : Except Fault (Parsed α n)}
    (h : Agree tail view w w y) {p : Parsed α m} (hp : w = .ok p) :
    ∃ q, y = .ok q ∧ view p.value = view q.value ∧ Continued tail p.rest q.rest := by
  rcases h p hp with ⟨-, hq⟩ | ⟨hw, -⟩
  · exact hq
  · exact absurd (hw.symm.trans hp) fail_ne_ok

theorem bind {view' : β → δ} {w x : Except Fault (Parsed α m)} {y : Except Fault (Parsed α n)}
    {f f' : Parsed α m → Except Fault (Parsed β m')} {g : Parsed α n → Except Fault (Parsed β n')}
    (h : Agree tail view w x y)
    (hf : ∀ p q, view p.value = view q.value → Continued tail p.rest q.rest →
      Agree tail view' (f p) (f' p) (g q)) :
    Agree tail view' (w >>= f) (x >>= f') (y >>= g) := by
  intro r hr
  obtain ⟨p, hp, hr⟩ := bind_eq_ok.1 hr
  rcases h p hp with ⟨rfl, q, rfl, hv, hrest⟩ | ⟨rfl, rfl⟩
  · exact hf p q hv hrest r hr
  · exact .inr ⟨rfl, rfl⟩

/-- A check of what was read comes between two parsers. -/
theorem checkWithin {view' : β → δ} {c c' c'' : Except Fault α}
    {f f' : α → Except Fault (Parsed β m)} {g : α → Except Fault (Parsed β n)}
    (h : ChecksAgree view c c' c'')
    (hf : ∀ a b, view a = view b → Agree tail view' (f a) (f' a) (g b)) :
    Agree tail view' (c >>= f) (c' >>= f') (c'' >>= g) := by
  intro r hr
  obtain ⟨a, rfl, hr⟩ := bind_eq_ok.1 hr
  rcases h a rfl with ⟨rfl, b, rfl, hv⟩ | ⟨rfl, rfl⟩
  · exact hf a b hv r hr
  · exact .inr ⟨rfl, rfl⟩

/-- A check for which no calls are counted. -/
theorem check {view' : β → δ} {c c' : Except Fault α} {f f' : α → Except Fault (Parsed β m)}
    {g : α → Except Fault (Parsed β n)}
    (h : ∀ a, c = .ok a → ∃ b, c' = .ok b ∧ view a = view b)
    (hf : ∀ a b, view a = view b → Agree tail view' (f a) (f' a) (g b)) :
    Agree tail view' (c >>= f) (c >>= f') (c' >>= g) :=
  checkWithin (fun a ha => .inl ⟨ha, h a ha⟩) hf

/-- A check gives the same on both sides. -/
theorem same {view : β → δ} {c c' : Except Fault α} {f f' : α → Except Fault (Parsed β m)}
    {g : α → Except Fault (Parsed β n)} (h : ∀ a, c = .ok a → c' = .ok a)
    (hf : ∀ a, Agree tail view (f a) (f' a) (g a)) :
    Agree tail view (c >>= f) (c >>= f') (c' >>= g) := by
  intro r hr
  obtain ⟨a, rfl, hr⟩ := bind_eq_ok.1 hr
  rw [h a rfl]
  exact hf a r hr

end Agree

/-- Parsers agree on rows of tokens at other places, with a tail behind them. -/
def ParsersAgree (tail : List Token) (view : α → γ) (p p' q : Parser α) : Prop :=
  ∀ ts us, Continued tail ts us → Agree tail view (p ts) (p' ts) (q us)

end

/-! ## Tokens -/

/-- A test that does not look at the place of a token, and that no token passes behind which an
expression ends. -/
structure IsInner (p : Token → Bool) : Prop where
  unplaced : ∀ kind value m n, p ⟨kind, value, m⟩ = p ⟨kind, value, n⟩
  ends : ∀ t : Token, t.kind ∈ [Kind.comma, .rightParen, .finish] → p t = false

namespace IsInner

/-- No expression ends in front of a token of another kind. -/
theorem kind (kind : Kind) (h : kind ∉ [Kind.comma, .rightParen, .finish]) :
    IsInner (·.kind == kind) where
  unplaced _ _ _ _ := rfl
  ends _ ht := beq_false_of_ne fun he => h (he ▸ ht)

theorem word (words : List String) : IsInner (·.isWord words) where
  unplaced _ _ _ _ := rfl
  ends t ht := by
    have hk : t.kind ≠ .identifier := fun he => absurd (he ▸ ht) (by decide)
    simp [Token.isWord, hk]

theorem label : IsInner fun t => t.kind == .identifier || t.kind == .text where
  unplaced _ _ _ _ := rfl
  ends t ht := by
    have hk : t.kind ≠ .identifier ∧ t.kind ≠ .text :=
      ⟨fun he => absurd (he ▸ ht) (by decide), fun he => absurd (he ▸ ht) (by decide)⟩
    simp [hk]

theorem sign : IsInner fun t => (sign? t).isSome where
  unplaced _ _ _ _ := rfl
  ends t ht := by
    have hk : t.kind ≠ .operator := fun he => absurd (he ▸ ht) (by decide)
    simp [sign?, hk]

theorem matchOp : IsInner fun t => (matchOp? t).isSome where
  unplaced _ _ _ _ := rfl
  ends t ht := by
    have hk : t.kind ≠ .matcher := fun he => absurd (he ▸ ht) (by decide)
    simp [matchOp?, hk]

end IsInner

variable {α γ : Type} {m n stop stop' calls calls' : Nat} {tail ts us : List Token}

/-- At the first token of a row that is not empty, a test has one result. -/
theorem take?_head (h : Continued tail ts us) (hne : ts ≠ []) {p : Token → Bool}
    (hp : ∀ kind value m n, p ⟨kind, value, m⟩ = p ⟨kind, value, n⟩) :
    (take? p ts = none ∧ take? p us = none) ∨ ∃ q r, take? p ts = some q ∧ take? p us = some r ∧
      q.value.content = r.value.content ∧ Continued tail q.rest r.rest := by
  obtain ⟨t, ts, rfl⟩ := List.exists_cons_of_ne_nil hne
  obtain ⟨u, us, rfl, hc, hs⟩ := h.cons_left
  cases ht : p t with
  | false => exact .inl ⟨by simp [take?, ht], by simp [take?, ← apply_eq hp hc, ht]⟩
  | true =>
    exact .inr ⟨_, _, take?_eq_some ht, take?_eq_some ((apply_eq hp hc).symm.trans ht), hc, hs⟩

/-- No token of the tail is taken that belongs to an expression. -/
theorem take?_tail (hclosed : Closed tail) {p : Token → Bool} (hp : IsInner p) :
    take? p tail = none :=
  take?_eq_none_iff.2 fun t ht => hp.ends t (by rcases hclosed t ht with hk | hk <;> simp [hk])

/-- A token that qualifies is taken on both sides or on neither. -/
theorem take?_inner (hclosed : Closed tail) (h : Continued tail ts us) {p : Token → Bool}
    (hp : IsInner p) :
    (take? p ts = none ∧ take? p us = none) ∨ ∃ q r, take? p ts = some q ∧ take? p us = some r ∧
      q.value.content = r.value.content ∧ Continued tail q.rest r.rest := by
  cases ts with
  | nil =>
    rw [h.nil_left]
    exact .inl ⟨rfl, take?_tail hclosed hp⟩
  | cons t ts => exact take?_head h (List.cons_ne_nil t ts) hp.unplaced

/-- A test of the token behind some tokens. -/
theorem current_inner (hclosed : Closed tail) (h : Continued tail ts us) {p : Token → Bool}
    (hp : IsInner p) (stop stop' : Nat) : p (current stop ts) = p (current stop' us) := by
  have hfinish : ∀ stop, p (.finish stop) = false := fun stop =>
    hp.ends (.finish stop) (by simp [Token.finish])
  cases ts with
  | nil =>
    rw [h.nil_left]
    cases tail with
    | nil => exact (hfinish stop).trans (hfinish stop').symm
    | cons t tail =>
      have ht : p t = false := hp.ends t (by rcases hclosed t rfl with hk | hk <;> simp [hk])
      exact (hfinish stop).trans ht.symm
  | cons t ts =>
    obtain ⟨u, us, rfl, hc, -⟩ := h.cons_left
    exact apply_eq hp.unplaced hc

/-- Parsers that look at the first token: they agree if they do so with a token that qualifies, and
without one. -/
theorem Agree.take {view : α → γ} {p : Token → Bool} {w x : Except Fault (Parsed α m)}
    {y : Except Fault (Parsed α n)} {f f' : Parsed Token ts.length → Except Fault (Parsed α m)}
    {g : Parsed Token us.length → Except Fault (Parsed α n)} (hclosed : Closed tail)
    (h : Continued tail ts us) (hp : IsInner p)
    (hf : ∀ q r, q.value.content = r.value.content → Continued tail q.rest r.rest →
      Agree tail view (f q) (f' q) (g r))
    (hx : Agree tail view w x y) :
    Agree tail view
      (match take? p ts with
        | some q => f q
        | none => w)
      (match take? p ts with
        | some q => f' q
        | none => x)
      (match take? p us with
        | some r => g r
        | none => y) := by
  rcases take?_inner hclosed h hp with ⟨hn, hn'⟩ | ⟨q, r, hq, hr, hc, hs⟩
  · simp only [hn, hn']
    exact hx
  · simp only [hq, hr]
    exact hf q r hc hs

/-- A token of one kind is found in both rows, though what is missed has another place. -/
theorem expect_agree (kind : Kind) (place : Place) :
    ParsersAgree tail Token.content (expect stop kind place) (expect stop kind place)
      (expect stop' kind place) := by
  intro ts us h
  cases ts with
  | nil => exact .nil
  | cons t ts =>
    unfold expect
    rcases take?_head h (List.cons_ne_nil t ts) (p := (·.kind == kind)) (fun _ _ _ _ => rfl) with
      ⟨hn, hn'⟩ | ⟨q, r, hq, hr, hc, hs⟩
    · simp only [hn]
      exact .error
    · simp only [hq, hr]
      exact .ok hc hs

variable (hclosed : Closed tail)

include hclosed

theorem label_agree (place : Place) :
    ParsersAgree tail id (label stop place) (label stop place) (label stop' place) :=
  fun _ _ h => .take hclosed h .label (fun _ _ hc hs => .ok (value_eq hc) hs) .error

omit hclosed in
/-- A row of items is read alike if its items are; what closes it is one of its own tokens. -/
theorem separated_agree {view : α → γ} {close : Kind} {place : Place} {item item' item'' : Parser α}
    (hitem : ParsersAgree tail view item item' item'') {ts us : List Token}
    (h : Continued tail ts us) :
    Agree tail (List.map view) (separated stop close place item ts)
      (separated stop close place item' ts) (separated stop' close place item'' us) := by
  cases ts with
  | nil => exact .nil
  | cons t ts =>
    rw [separated, separated, separated]
    rcases take?_head h (List.cons_ne_nil t ts) (p := (·.kind == close)) (fun _ _ _ _ => rfl) with
      ⟨hn, hn'⟩ | ⟨q, r, hq, hr, -, hs⟩
    · simp only [hn, hn']
      refine (hitem _ _ h).bind fun first first' hv hs => ?_
      by_cases hne : first.rest = []
      · -- Behind the last token of the row stands neither a comma nor a closing token.
        have hnone : ∀ p, take? p first.rest = none := fun p => take?_eq_none_iff.2 (by simp [hne])
        simp only [hnone]
        exact .error
      · rcases take?_head hs hne (p := (·.kind == .comma)) (fun _ _ _ _ => rfl) with
          ⟨hn, hn'⟩ | ⟨comma, comma', hq, hr, -, hs⟩
        · simp only [hn, hn']
          rcases take?_head hs hne (p := (·.kind == close)) (fun _ _ _ _ => rfl) with
            ⟨hn, hn'⟩ | ⟨q, r, hq, hr, -, hs⟩
          · simp only [hn]
            exact .error
          · simp only [hq, hr]
            exact .ok (by simp [hv]) hs
        · simp only [hq, hr]
          have fewer : comma.rest.length < (t :: ts).length :=
            Nat.lt_trans comma.shorter first.shorter
          exact (separated_agree hitem hs).bind fun more more' hmore hs =>
            .ok (by simp [hv, hmore]) hs
    · simp only [hq, hr]
      exact .ok rfl hs
termination_by ts.length

theorem labelList_agree (place : Place) :
    ParsersAgree tail id (labelList stop place) (labelList stop place) (labelList stop' place) :=
  fun _ _ h =>
    (expect_agree _ _ _ _ h).bind fun _ _ _ hs =>
      (separated_agree (label_agree hclosed place) hs).bind fun _ _ hv hs =>
        .ok (by simpa [Parsed.widen] using hv) hs

/-! ## Selectors -/

omit hclosed in
/-- A quoted name looks one token ahead, so more than one has to be left. -/
theorem quotedName?_agree (stop stop' : Nat) (name : String) (h : Continued tail ts us)
    (hlong : 1 < ts.length) :
    (quotedName? stop name ts = none ∧ quotedName? stop' name us = none) ∨ ∃ x y,
      quotedName? stop name ts = some x ∧ quotedName? stop' name us = some y ∧
        Agree tail id x x y := by
  unfold quotedName?
  rcases take?_head h (List.ne_nil_of_length_pos (by omega)) (p := (·.kind == .text))
    (fun _ _ _ _ => rfl) with ⟨hn, hn'⟩ | ⟨q, r, hq, hr, hc, hs⟩
  · rw [hn, hn']
    exact .inl ⟨rfl, rfl⟩
  · have hnext : (current stop q.rest).content = (current stop' r.rest).content := by
      obtain ⟨-, hts⟩ := take?_eq_some_iff.1 hq
      cases hrest : q.rest with
      | nil => simp [hts, hrest] at hlong
      | cons t rest =>
        rw [hrest] at hs
        obtain ⟨u, us, hu, hc, -⟩ := hs.cons_left
        rw [hu]
        exact hc
    simp only [hq, hr, Option.bind_eq_bind, Option.bind_some, kind_eq hnext]
    split
    · refine .inr ⟨_, _, rfl, rfl, ?_⟩
      split
      · exact .ok (by simp [Parsed.map, value_eq hc]) hs
      · exact .error
    · exact .inl ⟨rfl, rfl⟩

omit hclosed in
/-- A token alone is no condition. -/
theorem matcher_singleton (name : String) (t : Token) {p : Parsed Matcher [t].length} :
    matcher stop name [t] ≠ .ok p := by
  have hquoted : quotedName? stop name [t] = none := by
    unfold quotedName?
    cases ht : t.kind == .text with
    | true => simp [take?, ht, current, Token.finish]
    | false => simp [take?, ht]
  unfold matcher
  simp only [hquoted]
  split
  · exact fail_ne_ok
  · rename_i label hlabel
    obtain ⟨t, ts, -, hts, -, hr⟩ := exists_of_take?_eq_some hlabel
    obtain rfl := (List.cons.inj hts).2
    have hnone : take? (fun t => (matchOp? t).isSome) label.rest = none :=
      take?_eq_none_iff.2 (by simp [hr])
    simp only [hnone]
    exact fail_ne_ok

theorem matcher_agree (name : String) :
    ParsersAgree tail id (matcher stop name) (matcher stop name) (matcher stop' name) := by
  intro ts us h
  cases ts with
  | nil => exact .nil
  | cons t ts =>
    by_cases hlong : 1 < (t :: ts).length
    · unfold matcher
      rcases quotedName?_agree stop stop' name h hlong with ⟨hn, hn'⟩ | ⟨x, y, hx, hy, hxy⟩
      · simp only [hn, hn']
        rcases take?_inner hclosed h .label with ⟨hn, hn'⟩ | ⟨label, label', hq, hr, hlabel, hs⟩
        · simp only [hn]
          exact .error
        · simp only [hq, hr]
          rcases take?_inner hclosed hs .matchOp with ⟨hn, hn'⟩ | ⟨op, op', hq, hr, hop, hs⟩
          · simp only [hn]
            exact .error
          · simp only [hq, hr]
            refine (expect_agree _ _ _ _ hs).bind fun value value' hv hs => .ok ?_ hs
            simp only [id, value_eq hlabel, value_eq hv,
              apply_eq (p := matchOp?) (fun _ _ _ _ => rfl) hop]
      · simp only [hx, hy]
        exact hxy
    · obtain rfl : ts = [] := by
        cases ts with
        | nil => rfl
        | cons => simp at hlong
      exact fun p hp => absurd hp (matcher_singleton name t)

/-- A selector as a tree without its place. -/
def Selector.unplaced (s : Selector) : Expr := (Expr.selector s).unplaced

omit hclosed in
/-- The check of a selector does not look at its place. -/
theorem checkSelector_placed {pos pos' : Nat} {name : String} {matchers : List Matcher}
    {s : Selector} (h : checkSelector ⟨pos, name, matchers⟩ = .ok s) :
    ∃ s', checkSelector ⟨pos', name, matchers⟩ = .ok s' ∧ s.unplaced = s'.unplaced := by
  obtain ⟨rfl, hwf⟩ := checkSelector_eq_ok.1 h
  exact ⟨_, checkSelector_eq_ok.2 ⟨rfl, hwf⟩, rfl⟩

/-- The conditions of a selector are the same; only its place is another one. -/
theorem conditions_agree (pos pos' : Nat) (name : String) :
    ParsersAgree tail Selector.unplaced (conditions stop pos name) (conditions stop pos name)
      (conditions stop' pos' name) := by
  intro ts us h
  refine (separated_agree (matcher_agree hclosed name) h).bind fun matchers matchers' hv hs => ?_
  have hv : matchers.value = matchers'.value := by simpa using hv
  rw [hv]
  exact .check (fun _ => checkSelector_placed) fun _ _ hv => .ok hv hs

theorem selector_agree (pos pos' : Nat) (name : String) (h : Continued tail ts us) :
    Agree tail Selector.unplaced (selector stop pos name ts) (selector stop pos name ts)
      (selector stop' pos' name us) := by
  unfold selector
  rcases take?_inner hclosed h (.kind .leftBrace (by decide)) with
    ⟨hn, hn'⟩ | ⟨q, r, hq, hr, -, hs⟩
  · simp only [hn, hn']
    exact .check (fun _ => checkSelector_placed) fun _ _ hv => .ok hv h
  · simp only [hq, hr]
    exact (conditions_agree hclosed pos pos' name _ _ hs).bind fun _ _ hv hs => .ok hv hs

/-! ## Modifiers and ranges -/

omit hclosed in
/-- The sign that a token is depends on its content alone. -/
theorem sign?_eq {t u : Token} (h : t.content = u.content) : sign? t = sign? u :=
  apply_eq (fun _ _ _ _ => rfl) h

theorem timestamp_agree :
    ParsersAgree tail id (timestamp stop) (timestamp stop) (timestamp stop') := by
  intro ts us h
  refine .take hclosed h (.kind _ (by decide)) (fun _ _ _ hs => .ok rfl hs) ?_
  refine .take hclosed h .sign (fun _ _ _ hs => ?_) ?_
  · exact (expect_agree _ _ _ _ hs).bind fun _ _ _ hs => .ok rfl hs
  · refine .take hclosed h (.word _) (fun _ _ _ hs => ?_) .error
    exact (expect_agree _ _ _ _ hs).bind fun _ _ _ hs =>
      (expect_agree _ _ _ _ hs).bind fun _ _ _ hs => .ok rfl hs

theorem offset_agree : ParsersAgree tail id (offset stop) (offset stop) (offset stop') :=
  fun _ _ h =>
    .take hclosed h .sign
      (fun _ _ _ hs => (expect_agree _ _ _ _ hs).bind fun _ _ _ hs => .ok rfl hs)
      ((expect_agree _ _ _ _ h).bind fun _ _ _ hs => .ok rfl hs)

omit hclosed in
/-- A node is a selector where one that it is like is one. -/
theorem Expr.Like.selector {s : Selector} {f : Expr} (h : (Expr.selector s).Like f) :
    ∃ s', f = .selector s' ∧ s.unplaced = s'.unplaced := by
  cases f with
  | selector s' => exact ⟨s', rfl, h⟩
  | _ => cases h

omit hclosed in
/-- Whether a modifier may stand behind a node does not hang on places. -/
theorem insert_like {ms ms' : Modifiers} {m : Modifier} {e f : Expr} {pos pos' : Nat}
    (hl : e.Like f) (h : ms.insert m e pos = .ok ms') : ms.insert m f pos' = .ok ms' := by
  have hu (e : Expr) (pos : Nat) : ms.insert m e.unplaced pos = ms.insert m e pos := by
    cases e <;> rfl
  have hp : (ms.insert m f pos).toOption = (ms.insert m f pos').toOption := by
    unfold Modifiers.insert fail
    simp only [apply_ite Except.toOption]
    rfl
  rw [← hu, hl, hu] at h
  rw [← toOption_eq_some, ← hp, toOption_eq_some, h]

omit hclosed in
/-- What starts a subquery starts one with a tail behind it. -/
theorem startsSubquery_continued (h : Continued tail ts us) (hs : startsSubquery ts = true) :
    startsSubquery us = true := by
  cases ts with
  | nil => cases hs
  | cons t ts =>
    obtain ⟨u, us, rfl, -, h⟩ := h.cons_left
    cases ts with
    | nil => cases hs
    | cons t ts =>
      obtain ⟨u, us, rfl, -, h⟩ := h.cons_left
      cases ts with
      | nil => cases hs
      | cons t ts =>
        obtain ⟨u, us, rfl, hc, -⟩ := h.cons_left
        have hcolon : (t.kind == .colon) = true := hs
        rw [kind_eq hc] at hcolon
        exact hcolon

omit hclosed in
/-- What no range may follow no range may follow elsewhere. -/
theorem checkRange_continued {ms : Modifiers} {e f : Expr} {pos pos' : Nat} {x : Unit}
    (hl : e.Like f) (ha : Continued tail ts us) (h : checkRange ms e pos ts = .ok x) :
    checkRange ms f pos' us = .ok x := by
  have hu (e : Expr) (pos : Nat) (ts : List Token) :
      checkRange ms e.unplaced pos ts = checkRange ms e pos ts := by
    unfold checkRange
    cases e with
    | selector s => cases ms.first? <;> rfl
    | _ => rfl
  rw [← hu, hl, hu] at h
  unfold checkRange at h ⊢
  split at h
  · split at h
    · rename_i hs
      rw [if_pos (startsSubquery_continued ha hs)]
    · exact absurd h fail_ne_ok
  · exact h

/-- The step of a subquery, or that there is none, shows in the first tokens. -/
theorem subqueryStep_continued (h : Continued tail ts us) :
    (subqueryStep ts).value = (subqueryStep us).value ∧
      Continued tail (subqueryStep ts).rest (subqueryStep us).rest := by
  unfold subqueryStep
  rcases take?_inner hclosed h (.kind .duration (by decide)) with
    ⟨hn, hn'⟩ | ⟨q, r, hq, hr, hc, hs⟩
  · rw [hn, hn']
    exact ⟨rfl, h⟩
  · rw [hq, hr]
    exact ⟨congrArg some (value_eq hc), hs⟩

omit hclosed in
/-- The types of trees that are alike are found alike. -/
theorem typeWithin_agree {e f : Expr} (hl : e.Like f) :
    ChecksAgree id (e.typeWithin calls) (e.typeWithin calls') (f.typeWithin calls') := by
  intro type htype
  obtain ⟨-, rfl⟩ := Expr.typeWithin_eq_ok.1 htype
  rw [Expr.typeWithin_eq, Expr.typeWithin_eq, ← hl.typeCalls_eq, ← hl.type_eq]
  split
  · exact .inl ⟨rfl, _, rfl, rfl⟩
  · exact .inr ⟨rfl, rfl⟩

/-- A range is taken alike of nodes that differ in their places. -/
theorem range_agree {start start' : Nat} {e f : Expr} (hl : e.Like f) :
    ParsersAgree tail Expr.unplaced (range stop calls start e) (range stop calls' start e)
      (range stop' calls' start' f) := by
  intro ts us h
  refine (expect_agree _ _ _ _ h).bind fun range range' hrange hs => ?_
  rcases take?_inner hclosed hs (.kind .colon (by decide)) with
    ⟨hn, hn'⟩ | ⟨colon, colon', hq, hr, -, hs⟩
  · simp only [hn, hn']
    refine (expect_agree _ _ _ _ hs).bind fun closing closing' _ hs => ?_
    cases e with
    | selector s =>
      obtain ⟨s', rfl, hsel⟩ := hl.selector
      refine .ok ?_ hs
      simp only [Expr.unplaced, value_eq hrange, Expr.selector.inj hsel]
    | _ => exact .error
  · simp only [hq, hr]
    obtain ⟨hstep, hs⟩ := subqueryStep_continued hclosed hs
    refine (expect_agree _ _ _ _ hs).bind fun closing closing' _ hs => ?_
    refine .checkWithin (typeWithin_agree hl) fun type type' htype => ?_
    rw [show type = type' from htype]
    split
    · refine .ok ?_ hs
      simp only [Expr.unplaced, value_eq hrange, hstep, show e.unplaced = f.unplaced from hl]
    · exact .error

/-- Suffixes go on alike as long as there are any; no tail goes on with one. -/
theorem suffixes_agree {e f : Expr} (hl : e.Like f) (ms : Modifiers)
    {ts us : List Token} (h : Continued tail ts us) :
    Agree tail Expr.unplaced (suffixes stop calls e ms ts) (suffixes stop calls' e ms ts)
      (suffixes stop' calls' f ms us) := by
  rw [suffixes, suffixes, suffixes]
  refine .take hclosed h (.kind _ (by decide)) (fun bracket bracket' _ hs => ?_) ?_
  · refine .same (fun _ => checkRange_continued hl h) fun _ => ?_
    refine (range_agree hclosed hl _ _ hs).bind fun inner inner' hv hs => ?_
    have fewer : inner.rest.length < ts.length := Nat.lt_trans inner.shorter bracket.shorter
    exact (suffixes_agree hv .none hs).bind fun _ _ hv hs => .ok hv hs
  refine .take hclosed h (.word _) (fun word word' _ hs => ?_) ?_
  · refine .same (fun _ => insert_like hl) fun ms => ?_
    refine (offset_agree hclosed _ _ hs).bind fun amount amount' _ hs => ?_
    have fewer : amount.rest.length < ts.length := Nat.lt_trans amount.shorter word.shorter
    exact (suffixes_agree hl ms hs).bind fun _ _ hv hs => .ok hv hs
  refine .take hclosed h (.kind _ (by decide)) (fun sign sign' _ hs => ?_) (.ok hl h)
  refine .same (fun _ => insert_like hl) fun ms => ?_
  refine (timestamp_agree hclosed _ _ hs).bind fun time time' _ hs => ?_
  have fewer : time.rest.length < ts.length := Nat.lt_trans time.shorter sign.shorter
  exact (suffixes_agree hl ms hs).bind fun _ _ hv hs => .ok hv hs
termination_by ts.length

/-! ## Binary expressions -/

omit hclosed in
/-- The operator that a token is depends on its content alone. -/
theorem binaryOp?_eq {t u : Token} (h : t.content = u.content) : binaryOp? t = binaryOp? u :=
  apply_eq (fun _ _ _ _ => rfl) h

theorem boolModifier_agree (op : BinaryOp) (h : Continued tail ts us) :
    Agree tail id (boolModifier op ts) (boolModifier op ts) (boolModifier op us) := by
  unfold boolModifier
  rcases take?_inner hclosed h (.word ["bool"]) with ⟨hn, hn'⟩ | ⟨word, word', hq, hr, -, hs⟩
  · simp only [hn, hn']
    exact .ok rfl h
  · simp only [hq, hr]
    split
    · exact .ok rfl hs
    · exact .error

theorem vectorMatching_agree (op : BinaryOp) (h : Continued tail ts us) :
    Agree tail id (vectorMatching stop op ts) (vectorMatching stop op ts)
      (vectorMatching stop' op us) := by
  unfold vectorMatching
  rcases take?_inner hclosed h (.word ["on", "ignoring"]) with
    ⟨hn, hn'⟩ | ⟨word, word', hq, hr, -, hs⟩
  · simp only [hn, hn']
    exact .ok rfl h
  · simp only [hq, hr]
    refine (labelList_agree hclosed _ _ _ hs).bind fun labels labels' _ hs => ?_
    dsimp only [Parsed.andThen, Parsed.widen]
    rcases take?_inner hclosed hs (.word ["group_left", "group_right"]) with
      ⟨hn, hn'⟩ | ⟨group, group', hq, hr, -, hs⟩
    · simp only [hn, hn']
      exact .ok rfl hs
    · simp only [hq, hr]
      split
      · exact .error
      · rcases take?_inner hclosed hs (.kind .leftParen (by decide)) with
          ⟨hn, hn'⟩ | ⟨opening, opening', hq, hr, -, -⟩
        · simp only [hn, hn']
          exact .ok rfl hs
        · simp only [hq, hr]
          exact (labelList_agree hclosed _ _ _ hs).bind fun _ _ _ hs => .ok rfl hs

omit hclosed in
/-- The operands of an operator are checked alike, if they are alike. -/
theorem checkBinary_agree {pos pos' : Nat} {op : BinaryOp}
    {lhs lhs' rhs rhs' : Expr} {returnBool : Bool} (hl : lhs.Like lhs') (hr : rhs.Like rhs') :
    ChecksAgree Expr.unplaced (checkBinary calls pos op lhs rhs returnBool)
      (checkBinary calls' pos op lhs rhs returnBool)
      (checkBinary calls' pos' op lhs' rhs' returnBool) := by
  intro e he
  obtain ⟨rfl, ht, -⟩ := checkBinary_eq_ok.1 he
  have ht' := ht
  rw [hl.type_eq, hr.type_eq] at ht'
  by_cases hfits : max lhs.typeCalls rhs.typeCalls ≤ calls'
  · obtain ⟨hlfits, hrfits⟩ := Nat.max_le.1 hfits
    refine .inl ⟨checkBinary_eq_ok.2 ⟨rfl, ht, hlfits, hrfits⟩, _, checkBinary_eq_ok.2 ⟨rfl, ht',
      hl.typeCalls_eq ▸ hlfits, hr.typeCalls_eq ▸ hrfits⟩, ?_⟩
    simp only [Expr.unplaced, show lhs.unplaced = lhs'.unplaced from hl,
      show rhs.unplaced = rhs'.unplaced from hr]
  · refine .inr ⟨checkBinary_eq_tooDeep ht.1 hfits, checkBinary_eq_tooDeep ht'.1 ?_⟩
    rwa [hl.typeCalls_eq, hr.typeCalls_eq] at hfits

/-- No operator follows behind the tail. -/
theorem climb_tail {expression : Nat → Parser Expr} {level : Nat} {e f : Expr} (hl : e.Like f) :
    Agree tail Expr.unplaced (.ok (.stay e [])) (.ok (.stay e []))
      (climb stop' calls expression level f tail) := by
  cases tail with
  | nil =>
    rw [climb]
    exact .ok hl (Continued.of_alike rfl [])
  | cons t tail =>
    have hop : binaryOp? t = none := hclosed.nextOp?_eq_none
    rw [climb, hop]
    exact .ok hl (Continued.of_alike rfl (t :: tail))

/-- Operators are climbed alike as long as they bind tightly enough; no tail goes on with one. -/
theorem climb_agree {expression expression' expression'' : Nat → Parser Expr}
    (hexpression : ∀ level, ParsersAgree tail Expr.unplaced (expression level) (expression' level)
      (expression'' level))
    (level : Nat) {e f : Expr} (hl : e.Like f) {ts us : List Token} (h : Continued tail ts us) :
    Agree tail Expr.unplaced (climb stop calls expression level e ts)
      (climb stop calls' expression' level e ts) (climb stop' calls' expression'' level f us) := by
  cases ts with
  | nil =>
    rw [h.nil_left, climb, climb]
    exact climb_tail hclosed hl
  | cons t ts =>
    obtain ⟨u, us, rfl, hc, hs⟩ := h.cons_left
    rw [climb, climb, climb, binaryOp?_eq hc]
    cases binaryOp? u with
    | none => exact .ok hl h
    | some op =>
      dsimp only
      split
      · exact .ok hl h
      · refine (boolModifier_agree hclosed op hs).bind fun returnBool returnBool' hb hs => ?_
        refine (vectorMatching_agree hclosed op hs).bind fun matching matching' _ hs => ?_
        refine (hexpression _ _ _ hs).bind fun rhs rhs' hr hs => ?_
        have h₁ := returnBool.shorter
        have h₂ := matching.shorter
        have h₃ := rhs.shorter
        have fewer : rhs.rest.length < (t :: ts).length := by
          simp only [List.length_cons]
          omega
        rw [show returnBool.value = returnBool'.value from hb]
        exact .checkWithin (checkBinary_agree hl hr)
          fun node node' hn => (climb_agree hexpression level hn hs).bind
            fun _ _ hv hs => .ok hv hs
termination_by ts.length

/-! ## Calls and aggregations -/

omit hclosed in
/-- Trees that are the same without places are alike one by one. -/
theorem forall₂_like {es fs : List Expr} (h : es.map Expr.unplaced = fs.map Expr.unplaced) :
    List.Forall₂ Expr.Like es fs := by
  induction es generalizing fs with
  | nil =>
    rw [List.map_eq_nil_iff.1 (Eq.symm h)]
    exact .nil
  | cons e es ih =>
    obtain ⟨f, fs, rfl, hl, hs⟩ := List.map_eq_cons_iff.1 (Eq.symm h)
    exact .cons hl.symm (ih hs.symm)

omit hclosed in
/-- A call that passes its rules passes them with its arguments at other places. -/
theorem checkCall_like {pos pos' : Nat} {s : Signature} (hs : s ∈ signatures) {es fs : List Expr}
    {e : Expr} (hl : es.map Expr.unplaced = fs.map Expr.unplaced)
    (h : checkCall pos s es = .ok e) : ∃ f, checkCall pos' s fs = .ok f ∧ e.Like f := by
  obtain ⟨rfl, ht⟩ := (checkCall_eq_ok hs).1 h
  rw [map_type_eq (forall₂_like hl)] at ht
  refine ⟨_, (checkCall_eq_ok hs).2 ⟨rfl, ht⟩, ?_⟩
  simp only [Expr.Like, Expr.unplaced, Expr.unplacedAll_eq, hl]

section

variable {argument argument' argument'' : Parser Expr}
  (hargument : ParsersAgree tail Expr.unplaced argument argument' argument'')

include hargument

omit hclosed in
theorem call_agree {name name' : Token} (hname : name.content = name'.content) :
    ParsersAgree tail Expr.unplaced (call stop argument name) (call stop argument' name)
      (call stop' argument'' name') := by
  intro ts us h
  unfold call
  rw [value_eq hname]
  cases hs : signature? name'.value with
  | none => exact .error
  | some s =>
    refine (expect_agree _ _ _ _ h).bind fun opening opening' _ hr => ?_
    refine (separated_agree hargument hr).bind fun args args' hargs hr => ?_
    exact .check (fun _ => checkCall_like (mem_signatures hs).1 hargs) fun _ _ hv => .ok hv hr

omit hargument in
theorem grouping_agree (h : Continued tail ts us) :
    Agree tail id (grouping stop ts) (grouping stop ts) (grouping stop' us) := by
  unfold grouping
  rcases take?_inner hclosed h (.word ["by", "without"]) with
    ⟨hn, hn'⟩ | ⟨word, word', hq, hr, hc, hs⟩
  · simp only [hn, hn']
    exact .ok rfl h
  · simp only [hq, hr]
    refine (labelList_agree hclosed _ _ _ hs).bind fun labels labels' hv hs => .ok ?_ hs
    simp only [id, value_eq hc, show labels.value = labels'.value from hv]

omit hclosed hargument in
/-- An aggregation that passes its rules passes them with its arguments elsewhere. -/
theorem checkAggregate_like {pos pos' : Nat} {op : AggregateOp} {g : Grouping} {es fs : List Expr}
    {e : Expr} (hl : es.map Expr.unplaced = fs.map Expr.unplaced)
    (h : checkAggregate pos op g es = .ok e) :
    ∃ f, checkAggregate pos' op g fs = .ok f ∧ e.Like f := by
  obtain ⟨inner, parameter?, rfl, rfl, ht, hp⟩ := checkAggregate_eq_ok.1 h
  obtain ⟨parameter'?, inner', rfl, hinner, hparameter, htypes⟩ :=
    aggregateArguments_like (forall₂_like hl.symm)
  refine ⟨_, checkAggregate_eq_ok.2 ⟨inner', parameter'?, rfl, rfl, hinner.type_eq.trans ht,
    htypes.trans hp⟩, ?_⟩
  simp only [Expr.Like, Expr.unplaced, Expr.unplacedParameter_eq, hparameter,
    show inner'.unplaced = inner.unplaced from hinner]

/-- An aggregation is read alike, whichever place its grouping has. -/
theorem aggregation_agree (pos pos' : Nat) (op : AggregateOp) :
    ParsersAgree tail Expr.unplaced (aggregation stop argument pos op)
      (aggregation stop argument' pos op) (aggregation stop' argument'' pos' op) := by
  intro ts us h
  refine (grouping_agree hclosed h).bind fun leading leading' hleading hs => ?_
  refine (expect_agree _ _ _ _ hs).bind fun opening opening' _ hs => ?_
  refine (separated_agree hargument hs).bind fun args args' hargs hs => ?_
  refine (grouping_agree hclosed hs).bind fun trailing trailing' htrailing hs => ?_
  rw [show leading.value = leading'.value from hleading,
    show trailing.value = trailing'.value from htrailing]
  split
  · exact .error
  · exact .check (fun _ => checkAggregate_like hargs) fun _ _ hv => .ok hv hs

/-! ## Operands and expressions -/

omit hclosed hargument in
/-- What makes the name in front of it one of a function or an aggregation belongs to an
expression. -/
theorem isInner_callee : IsInner fun t => t.kind == .leftParen || t.isWord ["by", "without"] where
  unplaced _ _ _ _ := rfl
  ends t ht := by
    rw [(IsInner.kind .leftParen (by decide)).ends t ht, (IsInner.word _).ends t ht]
    rfl

omit hargument in
/-- Whether an aggregation starts shows in two tokens. -/
theorem aggregateStart?_eq {name name' : Token} (hname : name.content = name'.content)
    (h : Continued tail ts us) (stop stop' : Nat) :
    aggregateStart? name (current stop ts) = aggregateStart? name' (current stop' us) := by
  have hnext := current_inner hclosed h isInner_callee stop stop'
  rw [Bool.eq_iff_iff, Bool.or_eq_true, Bool.or_eq_true, beq_iff_eq, beq_iff_eq] at hnext
  unfold aggregateStart?
  simp only [hnext, value_eq hname]

omit hclosed hargument in
theorem numberWord?_eq {t u : Token} (h : t.content = u.content) : numberWord? t = numberWord? u :=
  apply_eq (fun _ _ _ _ => rfl) h

theorem named_agree {name name' : Token} (hname : name.content = name'.content)
    (h : Continued tail ts us) :
    Agree tail Expr.unplaced (named stop argument name ts) (named stop argument' name ts)
      (named stop' argument'' name' us) := by
  have hparen := current_inner hclosed h (.kind .leftParen (by decide)) stop stop'
  rw [Bool.eq_iff_iff, beq_iff_eq, beq_iff_eq] at hparen
  unfold named
  simp only [aggregateStart?_eq hclosed hname h stop stop', numberWord?_eq hname, hparen,
    value_eq hname]
  split
  · exact (aggregation_agree hclosed hargument _ _ _ _ _ h).bind fun _ _ hv hs => .ok hv hs
  · split
    · exact (call_agree hargument hname _ _ h).bind fun _ _ hv hs => .ok hv hs
    · split
      · exact .ok rfl h
      · split
        · exact .error
        · exact (selector_agree hclosed _ _ _ h).bind fun _ _ hv hs => .ok hv hs

end

omit hclosed in
/-- A literal has one value, wherever it stands. -/
theorem number_agree {t u : Token} {digits : List Char} (h : Continued tail ts us) :
    Agree (m := ts.length + 1) (n := us.length + 1) tail Expr.unplaced
      (match numberValue digits with
        | .ok value => .ok ⟨.number t.pos value, ts, Nat.lt_succ_self _⟩
        | .error fault => .error (.number fault))
      (match numberValue digits with
        | .ok value => .ok ⟨.number t.pos value, ts, Nat.lt_succ_self _⟩
        | .error fault => .error (.number fault))
      (match numberValue digits with
        | .ok value => .ok ⟨.number u.pos value, us, Nat.lt_succ_self _⟩
        | .error fault => .error (.number fault)) := by
  cases numberValue digits with
  | ok value => exact .ok rfl h
  | error fault => exact .error

omit hclosed in
/-- A sign makes the like of operands that differ in their places. -/
theorem applySign_like {pos pos' : Nat} {sign : Sign} {e f node : Expr} (hl : e.Like f)
    (h : applySign pos sign e = .ok node) :
    ∃ node', applySign pos' sign f = .ok node' ∧ node.Like node' := by
  obtain ⟨ht, ⟨p, v, v', rfl, hv, rfl⟩ | ⟨hn, rfl⟩⟩ := applySign_eq_ok.1 h
  · cases f with
    | number p' w =>
      cases hl
      exact ⟨_, applySign_eq_ok.2 ⟨ht, .inl ⟨p', v, v', rfl, hv, rfl⟩⟩, rfl⟩
    | _ => cases hl
  · rw [hl.type_eq] at ht
    rw [hl.isNumber_iff] at hn
    refine ⟨_, applySign_eq_ok.2 ⟨ht, .inr ⟨hn, rfl⟩⟩, ?_⟩
    simp only [Expr.Like, Expr.unplaced, show e.unplaced = f.unplaced from hl]

section

variable {operand operand' operand'' : Parser Expr}
  {expression expression' expression'' nested nested' nested'' : Nat → Parser Expr}

/-- A primary is read alike if what nests in it is. -/
theorem primary_agree (hnested : ∀ between, ParsersAgree tail Expr.unplaced (nested between)
      (nested' between) (nested'' between)) :
    ParsersAgree tail Expr.unplaced (primary stop nested) (primary stop nested')
      (primary stop' nested'') := by
  intro ts us h
  cases ts with
  | nil => exact .error
  | cons t ts =>
    obtain ⟨u, us, rfl, hc, hs⟩ := h.cons_left
    unfold primary
    simp only [kind_eq hc, value_eq hc]
    split
    · exact number_agree hs
    · exact number_agree hs
    · exact .ok rfl hs
    · exact (hnested _ _ _ hs).bind fun _ _ hv hs =>
        (expect_agree _ _ _ _ hs).bind fun _ _ _ hs => .ok (congrArg (Expr.paren 0) hv) hs
    · exact (conditions_agree hclosed _ _ _ _ _ hs).bind fun _ _ hv hs => .ok hv hs
    · exact named_agree hclosed (hnested 3) hc hs
    · exact .error

variable (hoperand : ParsersAgree tail Expr.unplaced operand operand' operand'')

include hoperand

/-- An operand is read alike if what nests in it is. -/
theorem operandWith_agree (hnested : ∀ between, ParsersAgree tail Expr.unplaced (nested between)
      (nested' between) (nested'' between)) :
    ParsersAgree tail Expr.unplaced (operandWith stop calls operand nested)
      (operandWith stop calls' operand' nested') (operandWith stop' calls' operand'' nested'') := by
  intro ts us h
  refine .take hclosed h .sign (fun sign sign' hc hs => ?_) ?_
  · rw [sign?_eq hc]
    exact (hoperand _ _ hs).bind fun _ _ hv hs =>
      .check (fun _ => applySign_like hv) fun _ _ hv => .ok hv hs
  · exact (primary_agree hclosed hnested _ _ h).bind fun _ _ hv hs =>
      (suffixes_agree hclosed hv .none hs).bind
        fun _ _ hv hs => .ok hv hs

/-- An expression is read alike if its operands are and what stands behind them. -/
theorem expressionWith_agree (hexpression : ∀ level, ParsersAgree tail Expr.unplaced
      (expression level) (expression' level) (expression'' level)) (level : Nat) :
    ParsersAgree tail Expr.unplaced (expressionWith stop calls operand expression level)
      (expressionWith stop calls' operand' expression' level)
      (expressionWith stop' calls' operand'' expression'' level) := fun _ _ h =>
  (hoperand _ _ h).bind fun _ _ hv hs =>
    (climb_agree hclosed hexpression level hv hs).bind fun _ _ hv hs => .ok hv hs

end

/-- What is read within one limit is read within any other one too, or that is reached. -/
theorem levels_agree (calls calls' : Nat) :
    ParsersAgree tail Expr.unplaced (operand stop calls) (operand stop calls')
      (operand stop' calls') ∧
    ∀ level, ParsersAgree tail Expr.unplaced (expression stop calls level)
      (expression stop calls' level) (expression stop' calls' level) := by
  induction calls using Nat.strongRecOn generalizing calls' with
  | ind calls ih =>
    cases calls with
    | zero =>
      refine ⟨fun ts us _ => ?_, fun level ts us _ => ?_⟩
      · rw [operand_zero]
        exact .error
      · rw [expression_zero]
        exact .error
    | succ calls =>
      cases calls' with
      | zero =>
        refine ⟨fun ts us _ => ?_, fun level ts us _ => ?_⟩
        · rw [operand_zero, operand_zero]
          exact .tooDeep
        · rw [expression_zero, expression_zero]
          exact .tooDeep
      | succ calls' =>
        obtain ⟨iho, ihe⟩ := ih calls (Nat.lt_succ_self calls) calls'
        have ihn := fun between => (ih (calls - between) (Nat.lt_succ_of_le (Nat.sub_le ..))
          (calls' - between)).2 0
        refine ⟨fun ts us h => ?_, fun level ts us h => ?_⟩
        · rw [operand, operand, operand]
          exact operandWith_agree hclosed iho ihn ts us h
        · rw [expression, expression, expression]
          exact expressionWith_agree hclosed iho ihe level ts us h

/-! ## Whole rows -/

omit hclosed

/-- Rows of tokens that differ in their places alone are expressions that do so, or none, within
every limit. -/
theorem parseTokens_alike (stop' : Nat) {limit : Nat} (h : Alike ts us) {e : Expr}
    (he : parseTokens stop ts limit = .ok e) :
    ∃ f, parseTokens stop' us limit = .ok f ∧ e.Like f := by
  obtain ⟨p, hp, rfl, hrest⟩ := reading_eq_ok.1 (parseTokens_eq_ok.1 he)
  have hus : Continued [] ts us := ⟨us, (List.append_nil us).symm, h⟩
  have hclosed : Closed [] := nofun
  have hagree : Agree [] Expr.unplaced (expression stop limit 0 ts)
      (expression stop limit 0 ts) (expression stop' limit 0 us) :=
    (levels_agree hclosed limit limit).2 0 ts us hus
  obtain ⟨q, hq, hv, hr⟩ := hagree.reads hp
  rw [hrest] at hr
  exact ⟨q.value, parseTokens_eq_ok.2 (reading_eq_ok.2 ⟨q, hq, rfl, hr.nil_left⟩), hv⟩

/-- Tokens at other places make up an expression just if the first ones do, and then the same one up
to the places. -/
theorem parseTokens_unplaced (limit : Nat) (h : Alike ts us) :
    (parseTokens stop ts limit).toOption.map Expr.unplaced =
      (parseTokens stop' us limit).toOption.map Expr.unplaced := by
  refine Option.ext fun e => ?_
  simp only [Option.map_eq_some_iff, toOption_eq_some]
  constructor
  · rintro ⟨e, he, rfl⟩
    obtain ⟨f, hf, hl⟩ := parseTokens_alike stop' h he
    exact ⟨f, hf, hl.symm⟩
  · rintro ⟨f, hf, rfl⟩
    obtain ⟨e, he, hl⟩ := parseTokens_alike stop h.symm hf
    exact ⟨e, he, hl.symm⟩

end PanelExport.Query
