import PanelExport.Proofs.Query.Reading

/-!
# The loops of the parser

Three of the parsers go round a loop: the items between brackets, the suffixes behind an operand,
and the operators behind a left operand. Each loop is written down as a relation with one rule for
every way a turn of it can go, so that what holds after every turn holds by induction.

* `separated_iff`, `suffixes_iff`, `climb_iff`: the parsers read what the relations relate.
* `aggregation_iff`: an aggregation, as one rule.
* `levels_induction`: what the parsers of a level have if those of the level below do.
-/

namespace PanelExport.Query

variable {α : Type}

/-! ## Items with commas between them -/

/-- Items with commas between them, up to and with a closing token. -/
inductive Separated (item : List Token → α → List Token → Prop) (close : Kind) :
    List Token → List α → List Token → Prop where
  | closed {t : Token} {rest : List Token} (closes : t.kind = close) :
      Separated item close (t :: rest) [] rest
  | last {ts rest : List Token} {a : α} {t : Token} (starts : ∀ t ∈ ts.head?, t.kind ≠ close)
      (first : item ts a (t :: rest)) (closes : t.kind = close) :
      Separated item close ts [a] rest
  | more {ts mid rest : List Token} {a : α} {as : List α} {comma : Token}
      (starts : ∀ t ∈ ts.head?, t.kind ≠ close) (first : item ts a (comma :: mid))
      (separates : comma.kind = .comma) (others : Separated item close mid as rest) :
      Separated item close ts (a :: as) rest

/-- What a parser reads. -/
def Reads (p : Parser α) (ts : List Token) (a : α) (rest : List Token) : Prop :=
  reading (p ts) = .ok (a, rest)

section Separated

variable {stop : Nat} {close : Kind} {place : Place} {item : Parser α}

private theorem separated_of_reading {ts rest : List Token} {as : List α}
    (h : reading (separated stop close place item ts) = .ok (as, rest)) :
    Separated (Reads item) close ts as rest := by
  rw [reading_separated] at h
  split at h
  · rename_i q hq
    obtain ⟨t, ts', hk, hts, -, hr⟩ := exists_of_take?_eq_some hq
    rw [hr] at h
    cases h
    rw [hts]
    exact .closed (by simpa using hk)
  · rename_i hn
    have starts : ∀ t ∈ ts.head?, t.kind ≠ close := by simpa [take?_eq_none_iff] using hn
    obtain ⟨⟨first, mid⟩, hf, h⟩ := bind_eq_ok.1 h
    simp only at h
    split at h
    · rename_i q hq
      obtain ⟨comma, ts', hk, hmid, -, hr⟩ := exists_of_take?_eq_some hq
      rw [hr] at h
      obtain ⟨⟨more, ts''⟩, hm, h⟩ := bind_eq_ok.1 h
      cases h
      rw [hmid] at hf
      have shorter : ts'.length < ts.length :=
        Nat.lt_of_succ_lt (length_lt_of_reading hf)
      exact .more starts hf (by simpa using hk) (separated_of_reading hm)
    · split at h
      · rename_i q hq
        obtain ⟨t, ts', hk, hmid, -, hr⟩ := exists_of_take?_eq_some hq
        rw [hr] at h
        cases h
        rw [hmid] at hf
        exact .last starts hf (by simpa using hk)
      · exact absurd h fail_ne_ok
termination_by ts.length
decreasing_by exact shorter

private theorem reading_of_separated (hc : close ≠ .comma) {ts rest : List Token} {as : List α}
    (h : Separated (Reads item) close ts as rest) :
    reading (separated stop close place item ts) = .ok (as, rest) := by
  induction h with
  | closed closes =>
    rw [reading_separated, take?_eq_some (by simpa using closes)]
  | @last ts rest a t starts first closes =>
    have hn : take? (·.kind == close) ts = none := by simpa [take?_eq_none_iff] using starts
    have hcomma : take? (·.kind == .comma) (t :: rest) = none :=
      take?_eq_none_iff.2 (by simpa [closes] using hc)
    have hclose : take? (·.kind == close) (t :: rest) = some ⟨t, rest, Nat.lt_succ_self _⟩ :=
      take?_eq_some (by simpa using closes)
    rw [reading_separated, hn]
    simp only [show reading (item ts) = .ok (a, t :: rest) from first, bind, Except.bind, hcomma,
      hclose]
    rfl
  | @more ts mid rest a as comma starts first separates others ih =>
    have hn : take? (·.kind == close) ts = none := by simpa [take?_eq_none_iff] using starts
    have hcomma : take? (·.kind == .comma) (comma :: mid) =
        some ⟨comma, mid, Nat.lt_succ_self _⟩ := take?_eq_some (by simpa using separates)
    rw [reading_separated, hn]
    simp only [show reading (item ts) = .ok (a, comma :: mid) from first, bind, Except.bind, hcomma,
      ih]
    rfl

/-- The parser of items reads what is separated. -/
theorem separated_iff (hc : close ≠ .comma) {ts rest : List Token} {as : List α} :
    reading (separated stop close place item ts) = .ok (as, rest) ↔
      Separated (Reads item) close ts as rest :=
  ⟨separated_of_reading, reading_of_separated hc⟩

end Separated

/-! ## Suffixes -/

/-- A token that goes on with what stands before it: a range, an offset or a time. -/
def Token.isSuffix (t : Token) : Bool :=
  t.kind == .leftBracket || t.isWord ["offset"] || t.kind == .atSign

/-- Ranges and modifiers behind a node. -/
inductive Suffixed (stop calls : Nat) :
    Expr → Modifiers → List Token → Expr → List Token → Prop where
  | done {node : Expr} {ms : Modifiers} {ts : List Token}
      (ends : ∀ t ∈ ts.head?, t.isSuffix = false) :
      Suffixed stop calls node ms ts node ts
  | range {node inner e : Expr} {ms : Modifiers} {bracket : Token} {ts mid rest : List Token}
      (opens : bracket.kind = .leftBracket)
      (allowed : checkRange ms node bracket.pos (bracket :: ts) = .ok ())
      (range : reading (range stop (calls - 1) bracket.pos node ts) = .ok (inner, mid))
      (outer : Suffixed stop calls inner .none mid e rest) :
      Suffixed stop calls node ms (bracket :: ts) e rest
  | offset {node e : Expr} {ms ms' : Modifiers} {word : Token} {ts mid rest : List Token}
      (isOffset : word.isWord ["offset"] = true)
      (allowed : ms.insert .offset node word.pos = .ok ms')
      (amount : reading (offset stop ts) = .ok ((), mid))
      (outer : Suffixed stop calls node ms' mid e rest) :
      Suffixed stop calls node ms (word :: ts) e rest
  | atSign {node e : Expr} {ms ms' : Modifiers} {sign : Token} {ts mid rest : List Token}
      (isAt : sign.kind = .atSign)
      (allowed : ms.insert .atSign node sign.pos = .ok ms')
      (time : reading (timestamp stop ts) = .ok ((), mid))
      (outer : Suffixed stop calls node ms' mid e rest) :
      Suffixed stop calls node ms (sign :: ts) e rest

section Suffixed

variable {stop calls : Nat}

private theorem suffixed_of_reading {node e : Expr} {ms : Modifiers} {ts rest : List Token}
    (h : reading (suffixes stop calls node ms ts) = .ok (e, rest)) :
    Suffixed stop calls node ms ts e rest := by
  rw [reading_suffixes] at h
  split at h
  · rename_i q hq
    obtain ⟨bracket, ts', hk, hts, hv, hr⟩ := exists_of_take?_eq_some hq
    rw [hv, hr] at h
    obtain ⟨_, ha, h⟩ := bind_eq_ok.1 h
    obtain ⟨⟨inner, mid⟩, hp, h⟩ := bind_eq_ok.1 h
    have shorter : mid.length < ts.length :=
      hts ▸ Nat.lt_succ_of_lt (length_lt_of_reading hp)
    rw [hts] at ha ⊢
    exact .range (by simpa using hk) ha hp (suffixed_of_reading h)
  · rename_i hb
    split at h
    · rename_i q hq
      obtain ⟨word, ts', hk, hts, hv, hr⟩ := exists_of_take?_eq_some hq
      rw [hv, hr] at h
      obtain ⟨ms', ha, h⟩ := bind_eq_ok.1 h
      obtain ⟨⟨_, mid⟩, hp, h⟩ := bind_eq_ok.1 h
      have shorter : mid.length < ts.length :=
        hts ▸ Nat.lt_succ_of_lt (length_lt_of_reading hp)
      rw [hts]
      exact .offset hk ha hp (suffixed_of_reading h)
    · rename_i hw
      split at h
      · rename_i q hq
        obtain ⟨sign, ts', hk, hts, hv, hr⟩ := exists_of_take?_eq_some hq
        rw [hv, hr] at h
        obtain ⟨ms', ha, h⟩ := bind_eq_ok.1 h
        obtain ⟨⟨_, mid⟩, hp, h⟩ := bind_eq_ok.1 h
        have shorter : mid.length < ts.length :=
          hts ▸ Nat.lt_succ_of_lt (length_lt_of_reading hp)
        rw [hts]
        exact .atSign (by simpa using hk) ha hp (suffixed_of_reading h)
      · rename_i hs
        cases h
        refine .done fun t ht => ?_
        rw [take?_eq_none_iff] at hb hw hs
        simp only [Token.isSuffix, hb t ht, hw t ht, hs t ht, Bool.or_self]
termination_by ts.length
decreasing_by all_goals exact shorter

private theorem reading_of_suffixed {node e : Expr} {ms : Modifiers} {ts rest : List Token}
    (h : Suffixed stop calls node ms ts e rest) :
    reading (suffixes stop calls node ms ts) = .ok (e, rest) := by
  induction h with
  | done ends =>
    simp only [Token.isSuffix, Bool.or_eq_false_iff] at ends
    rw [reading_suffixes, take?_eq_none_iff.2 fun t ht => (ends t ht).1.1,
      take?_eq_none_iff.2 fun t ht => (ends t ht).1.2,
      take?_eq_none_iff.2 fun t ht => (ends t ht).2]
  | @range node inner e ms bracket ts mid rest opens allowed range outer ih =>
    have hb : take? (·.kind == .leftBracket) (bracket :: ts) =
        some ⟨bracket, ts, Nat.lt_succ_self _⟩ := take?_eq_some (by simpa using opens)
    rw [reading_suffixes, hb]
    simp only [allowed, range, bind, Except.bind, ih]
  | @offset node e ms ms' word ts mid rest isOffset allowed amount outer ih =>
    have hb : take? (·.kind == .leftBracket) (word :: ts) = none :=
      take?_eq_none_iff.2 (by simp [((Token.isWord_iff _ _).1 isOffset).1])
    have hw : take? (·.isWord ["offset"]) (word :: ts) = some ⟨word, ts, Nat.lt_succ_self _⟩ :=
      take?_eq_some isOffset
    rw [reading_suffixes, hb, hw]
    simp only [allowed, amount, bind, Except.bind, ih]
  | @atSign node e ms ms' sign ts mid rest isAt allowed time outer ih =>
    have hb : take? (·.kind == .leftBracket) (sign :: ts) = none :=
      take?_eq_none_iff.2 (by simp [isAt])
    have hw : take? (·.isWord ["offset"]) (sign :: ts) = none :=
      take?_eq_none_iff.2 (by simp [isAt, Token.isWord])
    have hs : take? (·.kind == .atSign) (sign :: ts) = some ⟨sign, ts, Nat.lt_succ_self _⟩ :=
      take?_eq_some (by simpa using isAt)
    rw [reading_suffixes, hb, hw, hs]
    simp only [allowed, time, bind, Except.bind, ih]

theorem suffixes_iff {node e : Expr} {ms : Modifiers} {ts rest : List Token} :
    reading (suffixes stop calls node ms ts) = .ok (e, rest) ↔
      Suffixed stop calls node ms ts e rest :=
  ⟨suffixed_of_reading, reading_of_suffixed⟩

end Suffixed

/-! ## Operators -/

/-- The operator that the tokens go on with, if they go on with one. -/
def nextOp? (ts : List Token) : Option BinaryOp :=
  ts.head?.bind binaryOp?

/-- Operators that bind at least as tightly as a level, each with its right operand, behind a left
operand. -/
inductive Climbs (stop calls : Nat) (expression : Nat → Parser Expr) (level : Nat) :
    Expr → List Token → Expr → List Token → Prop where
  | done {lhs : Expr} {ts : List Token} (ends : ∀ op ∈ nextOp? ts, op.precedence < level) :
      Climbs stop calls expression level lhs ts lhs ts
  | step {lhs rhs node e : Expr} {t : Token} {op : BinaryOp} {returnBool : Bool}
      {ts ts₁ ts₂ ts₃ rest : List Token} (operator : binaryOp? t = some op)
      (binds : level ≤ op.precedence)
      (modifier : reading (boolModifier op ts) = .ok (returnBool, ts₁))
      (matching : reading (vectorMatching stop op ts₁) = .ok ((), ts₂))
      (operand : Reads (expression op.rightLevel) ts₂ rhs ts₃)
      (allowed : checkBinary (calls - 1) t.pos op lhs rhs returnBool = .ok node)
      (outer : Climbs stop calls expression level node ts₃ e rest) :
      Climbs stop calls expression level lhs (t :: ts) e rest

section Climbs

variable {stop calls level : Nat} {expression : Nat → Parser Expr}

private theorem climbs_of_reading {lhs e : Expr} {ts rest : List Token}
    (h : reading (climb stop calls expression level lhs ts) = .ok (e, rest)) :
    Climbs stop calls expression level lhs ts e rest := by
  cases hts : ts with
  | nil =>
    rw [hts, climb] at h
    cases h
    exact .done (by simp [nextOp?])
  | cons t ts' =>
    rw [hts, reading_climb] at h
    split at h
    · rename_i hop
      cases h
      exact .done (by simp [nextOp?, hop])
    · rename_i op hop
      split at h
      · rename_i hl
        cases h
        exact .done (by simpa [nextOp?, hop] using hl)
      · rename_i hl
        obtain ⟨⟨returnBool, ts₁⟩, hb, h⟩ := bind_eq_ok.1 h
        obtain ⟨⟨_, ts₂⟩, hm, h⟩ := bind_eq_ok.1 h
        obtain ⟨⟨rhs, ts₃⟩, hr, h⟩ := bind_eq_ok.1 h
        obtain ⟨node, hn, h⟩ := bind_eq_ok.1 h
        have shorter : ts₃.length < ts.length := by
          have h₁ := length_lt_of_reading hb
          have h₂ := length_lt_of_reading hm
          have h₃ := length_lt_of_reading hr
          simp only [hts, List.length_cons] at *
          omega
        exact .step hop (Nat.le_of_not_lt hl) hb hm hr hn (climbs_of_reading h)
termination_by ts.length
decreasing_by exact shorter

private theorem reading_of_climbs {lhs e : Expr} {ts rest : List Token}
    (h : Climbs stop calls expression level lhs ts e rest) :
    reading (climb stop calls expression level lhs ts) = .ok (e, rest) := by
  induction h with
  | @done lhs ts ends =>
    cases ts with
    | nil =>
      rw [climb]
      rfl
    | cons t ts =>
      rw [reading_climb]
      cases hop : binaryOp? t with
      | none => rfl
      | some op => simp [ends op (by simp [nextOp?, hop])]
  | @step lhs rhs node e t op returnBool ts ts₁ ts₂ ts₃ rest operator binds modifier matching
      operand allowed outer ih =>
    rw [reading_climb, operator]
    simp only [Nat.not_lt.2 binds, if_false, modifier, matching, allowed, ih, bind, Except.bind,
      show reading (expression op.rightLevel ts₂) = .ok (rhs, ts₃) from operand]

theorem climb_iff {lhs e : Expr} {ts rest : List Token} :
    reading (climb stop calls expression level lhs ts) = .ok (e, rest) ↔
      Climbs stop calls expression level lhs ts e rest :=
  ⟨climbs_of_reading, reading_of_climbs⟩

end Climbs

/-! ## Aggregations -/

/-- Arguments in parentheses, with a grouping clause on one side of them at most. -/
inductive Aggregates (stop : Nat) (argument : Parser Expr) (pos : Nat) (op : AggregateOp) :
    List Token → Expr → List Token → Prop where
  | aggregate {ts ts₁ ts₂ ts₃ rest : List Token} {leading trailing : Option Grouping}
      {opening : Token} {args : List Expr} {e : Expr}
      (front : reading (grouping stop ts) = .ok (leading, ts₁))
      (opens : reading (expect stop .leftParen .aggregation ts₁) = .ok (opening, ts₂))
      (arguments : reading (separated stop .rightParen .aggregation argument ts₂) = .ok (args, ts₃))
      (back : reading (grouping stop ts₃) = .ok (trailing, rest))
      (once : ¬(leading.isSome && trailing.isSome) = true)
      (allowed : checkAggregate pos op ((leading.or trailing).getD .none) args = .ok e) :
      Aggregates stop argument pos op ts e rest

theorem aggregation_iff {stop pos : Nat} {argument : Parser Expr} {op : AggregateOp} {e : Expr}
    {ts rest : List Token} : reading (aggregation stop argument pos op ts) = .ok (e, rest) ↔
      Aggregates stop argument pos op ts e rest := by
  rw [reading_aggregation]
  constructor
  · intro h
    obtain ⟨⟨leading, ts₁⟩, front, h⟩ := bind_eq_ok.1 h
    obtain ⟨⟨opening, ts₂⟩, opens, h⟩ := bind_eq_ok.1 h
    obtain ⟨⟨args, ts₃⟩, arguments, h⟩ := bind_eq_ok.1 h
    obtain ⟨⟨trailing, ts₄⟩, back, h⟩ := bind_eq_ok.1 h
    simp only at h
    split at h
    · exact absurd h fail_ne_ok
    · rename_i once
      obtain ⟨node, allowed, h⟩ := bind_eq_ok.1 h
      cases h
      exact ⟨front, opens, arguments, back, once, allowed⟩
  · rintro ⟨front, opens, arguments, back, once, allowed⟩
    simp only [front, opens, arguments, back, bind, Except.bind, if_neg once, allowed]
    rfl

/-! ## Levels -/

/-- What parsers that fail have, and the parsers of a level have if those of the levels below do,
the parsers of all levels have. -/
theorem levels_induction {stop : Nat} {O : Parser Expr → Prop} {E : Nat → Parser Expr → Prop}
    (tooDeep : O (fun _ => fail .tooDeep 0) ∧ ∀ level, E level (fun _ => fail .tooDeep 0))
    (operandWith : ∀ calls o nested, O o → (∀ between, E 0 (nested between)) →
      O (operandWith stop calls o nested))
    (expressionWith : ∀ calls o e, O o → (∀ level, E level (e level)) → ∀ level,
      E level (expressionWith stop calls o e level)) (calls : Nat) :
    O (operand stop calls) ∧ ∀ level, E level (expression stop calls level) := by
  induction calls using Nat.strongRecOn with
  | ind calls ih =>
    cases calls with
    | zero =>
      rw [operand, expression]
      exact tooDeep
    | succ calls =>
      obtain ⟨ho, he⟩ := ih calls (Nat.lt_succ_self calls)
      rw [operand, expression]
      refine ⟨operandWith calls _ _ ho fun between => ?_, expressionWith calls _ _ ho he⟩
      exact (ih (calls - between) (Nat.lt_succ_of_le (Nat.sub_le ..))).2 0

end PanelExport.Query
