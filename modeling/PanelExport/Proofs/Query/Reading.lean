import PanelExport.Proofs.Outcome
import PanelExport.Query.Parser

/-!
# What the parsers read

A parser's result carries a bound on the tokens left, which stands in the way of rewriting the
tokens. `reading` drops it: what was read, and the tokens left, or the fault. For every parser that
is put together from others, `reading_*` says how its reading follows from theirs.

* `reading_eq_ok`: a reading comes from a result of the parser.
* `reading_then`: the reading of a parser that goes on with the tokens another one left.
* `reading_expect_eq_ok`: an expected token stands at the front.
* `parseTokens_eq_ok`: a row of tokens is an expression if it is read as one to its end.
-/

namespace PanelExport.Query

variable {α β : Type} {m n : Nat}

/-- What was read off the front of some tokens, and the tokens left. -/
def reading (x : Except Fault (Parsed α n)) : Except Fault (α × List Token) :=
  x.map fun p => (p.value, p.rest)

theorem fail_ne_ok {c : ParseCause} {pos : Nat} {a : α} : fail c pos ≠ .ok a := nofun

theorem reading_eq_ok {x : Except Fault (Parsed α n)} {a : α} {rest : List Token} :
    reading x = .ok (a, rest) ↔ ∃ p, x = .ok p ∧ p.value = a ∧ p.rest = rest := by
  cases x <;> simp [reading, Except.map]

theorem reading_eq_error {x : Except Fault (Parsed α n)} {fault : Fault} :
    reading x = .error fault ↔ x = .error fault := by
  cases x <;> simp [reading, Except.map]

/-- What is left is as short as the parser's type says. -/
theorem length_lt_of_reading {x : Except Fault (Parsed α n)} {a : α} {rest : List Token}
    (h : reading x = .ok (a, rest)) : rest.length < n := by
  obtain ⟨p, -, -, rfl⟩ := reading_eq_ok.1 h
  exact p.shorter

theorem reading_bind (x : Except Fault β) (f : β → Except Fault (Parsed α n)) :
    reading (x >>= f) = x >>= fun b => reading (f b) := by
  cases x <;> rfl

/-- The reading of a parser that goes on with the tokens another one left. -/
theorem reading_then {x : Except Fault (Parsed β m)} {f : Parsed β m → Except Fault (Parsed α n)}
    {g : β × List Token → Except Fault (α × List Token)}
    (h : ∀ p, reading (f p) = g (p.value, p.rest)) : reading (x >>= f) = reading x >>= g := by
  cases x with
  | error e => rfl
  | ok p => exact h p

/-! ## Tokens -/

theorem take?_eq_some_iff {p : Token → Bool} {ts : List Token} {q : Parsed Token ts.length} :
    take? p ts = some q ↔ p q.value = true ∧ ts = q.value :: q.rest := by
  cases ts with
  | nil => exact ⟨nofun, fun h => nomatch h.2⟩
  | cons t rest =>
    obtain ⟨v, r, hr⟩ := q
    by_cases h : p t = true
    · rw [take?_eq_some h]
      simp only [Option.some.injEq, Parsed.mk.injEq, List.cons.injEq]
      exact ⟨fun ⟨hv, hr⟩ => ⟨hv ▸ h, hv, hr⟩, fun ⟨_, hv, hr⟩ => ⟨hv, hr⟩⟩
    · simp only [take?, h, if_false, Bool.false_eq_true, reduceCtorEq, List.cons.injEq, false_iff]
      rintro ⟨hv, rfl, -⟩
      exact h hv

theorem exists_of_take?_eq_some {p : Token → Bool} {ts : List Token} {q : Parsed Token ts.length}
    (h : take? p ts = some q) :
    ∃ t rest, p t = true ∧ ts = t :: rest ∧ q.value = t ∧ q.rest = rest :=
  have ⟨hp, ht⟩ := take?_eq_some_iff.1 h
  ⟨_, _, hp, ht, rfl, rfl⟩

theorem take?_eq_none_iff {p : Token → Bool} {ts : List Token} :
    take? p ts = none ↔ ∀ t ∈ ts.head?, p t = false := by
  cases ts with
  | nil => simp [take?]
  | cons t rest => simp [take?]

/-- The reading of a parser that takes the first token if it qualifies, and fails otherwise. -/
private theorem taken_eq_ok {p : Token → Bool} {f : Token → α} {ts rest : List Token} {a : α}
    {x : Except Fault (Parsed α ts.length)} (hs : ∀ q, take? p ts = some q → x = .ok (q.map f))
    (hn : take? p ts = none → ∃ c pos, x = fail c pos) :
    reading x = .ok (a, rest) ↔ ∃ t, p t = true ∧ f t = a ∧ ts = t :: rest := by
  rw [reading_eq_ok]
  cases h : take? p ts with
  | some q =>
    obtain ⟨hp, ht⟩ := take?_eq_some_iff.1 h
    rw [hs q h]
    constructor
    · rintro ⟨_, hq, rfl, rfl⟩
      cases hq
      exact ⟨q.value, hp, rfl, ht⟩
    · rintro ⟨t, -, rfl, hts⟩
      obtain ⟨hv, hr⟩ := List.cons.inj (ht.symm.trans hts)
      exact ⟨_, rfl, congrArg f hv, hr⟩
  | none =>
    obtain ⟨c, pos, hx⟩ := hn h
    rw [hx]
    rw [take?_eq_none_iff] at h
    constructor
    · rintro ⟨_, hq, -⟩
      exact absurd hq fail_ne_ok
    · rintro ⟨t, hp, -, rfl⟩
      simp [hp] at h

theorem reading_expect_eq_ok {stop : Nat} {kind : Kind} {place : Place} {ts rest : List Token}
    {t : Token} : reading (expect stop kind place ts) = .ok (t, rest) ↔
      t.kind = kind ∧ ts = t :: rest := by
  rw [taken_eq_ok (p := (·.kind == kind)) (f := id)]
  · simp only [beq_iff_eq, id]
    exact ⟨fun ⟨_, hk, ht, h⟩ => ht ▸ ⟨hk, h⟩, fun ⟨hk, h⟩ => ⟨t, hk, rfl, h⟩⟩
  · intro q hq
    simp only [expect, hq]
    rfl
  · intro hq
    simp only [expect, hq]
    exact ⟨_, _, rfl⟩

theorem reading_label_eq_ok {stop : Nat} {place : Place} {ts rest : List Token} {s : String} :
    reading (label stop place ts) = .ok (s, rest) ↔
      ∃ t, (t.kind = .identifier ∨ t.kind = .text) ∧ t.value = s ∧ ts = t :: rest := by
  rw [taken_eq_ok (p := fun t => t.kind == .identifier || t.kind == .text) (f := (·.value))]
  · simp
  · intro q hq
    simp only [label, hq]
  · intro hq
    simp only [label, hq]
    exact ⟨_, _, rfl⟩

/-! ## Selectors -/

theorem reading_labelList (stop : Nat) (place : Place) (ts : List Token) :
    reading (labelList stop place ts) = (do
      let (_, ts) ← reading (expect stop .leftParen place ts)
      reading (separated stop .rightParen place (label stop place) ts)) := by
  unfold labelList
  apply reading_then
  intro opening
  simp only
  cases separated stop .rightParen place (label stop place) opening.rest <;> rfl

theorem reading_conditions (stop pos : Nat) (name : String) (ts : List Token) :
    reading (conditions stop pos name ts) = (do
      let (matchers, ts) ← reading (separated stop .rightBrace .matching (matcher stop name) ts)
      return (← checkSelector ⟨pos, name, matchers⟩, ts)) := by
  unfold conditions
  apply reading_then
  intro matchers
  simp only
  cases checkSelector ⟨pos, name, matchers.value⟩ <;> rfl

theorem reading_selector (stop pos : Nat) (name : String) (ts : List Token) :
    reading (selector stop pos name ts) =
      match take? (·.kind == .leftBrace) ts with
      | none => do return (← checkSelector ⟨pos, name, []⟩, ts)
      | some brace => reading (conditions stop pos name brace.rest) := by
  unfold selector
  cases take? (·.kind == .leftBrace) ts with
  | none => cases checkSelector ⟨pos, name, []⟩ <;> rfl
  | some brace =>
    simp only
    cases conditions stop pos name brace.rest <;> rfl

theorem reading_separated (stop : Nat) (close : Kind) (place : Place) (item : Parser α)
    (ts : List Token) :
    reading (separated stop close place item ts) =
      match take? (·.kind == close) ts with
      | some t => .ok ([], t.rest)
      | none => (do
        let (first, ts) ← reading (item ts)
        match take? (·.kind == .comma) ts with
        | some comma =>
          let (more, ts) ← reading (separated stop close place item comma.rest)
          return (first :: more, ts)
        | none =>
          match take? (·.kind == close) ts with
          | some t => return ([first], t.rest)
          | none =>
            let found := current stop ts
            fail (.unexpectedIn found place (.separator close)) found.pos) := by
  rw [separated]
  cases take? (·.kind == close) ts with
  | some t => rfl
  | none =>
    apply reading_then
    intro first
    simp only
    cases take? (·.kind == .comma) first.rest with
    | some comma => exact reading_then fun _ => rfl
    | none => cases take? (·.kind == close) first.rest <;> rfl

/-! ## Ranges and modifiers -/

theorem reading_offset (stop : Nat) (ts : List Token) :
    reading (offset stop ts) = (do
      let (_, ts) ← reading (expect stop .duration .offset
        (((take? (fun t => (sign? t).isSome) ts).map (·.rest)).getD ts))
      return ((), ts)) := by
  unfold offset
  cases take? (fun t => (sign? t).isSome) ts with
  | none =>
    simp only [Option.map_none, Option.getD_none]
    cases expect stop .duration .offset ts <;> rfl
  | some sign =>
    simp only [Option.map_some, Option.getD_some]
    cases expect stop .duration .offset sign.rest <;> rfl

theorem reading_timestamp (stop : Nat) (ts : List Token) :
    reading (timestamp stop ts) =
      match take? (·.kind == .number) ts with
      | some t => .ok ((), t.rest)
      | none =>
        match take? (fun t => (sign? t).isSome) ts with
        | some sign => do
          let (_, ts) ← reading (expect stop .number .atModifier sign.rest)
          return ((), ts)
        | none =>
          match take? (·.isWord ["start", "end"]) ts with
          | some word => do
            let (_, ts) ← reading (expect stop .leftParen .atModifier word.rest)
            let (_, ts) ← reading (expect stop .rightParen .atModifier ts)
            return ((), ts)
          | none =>
            let found := current stop ts
            fail (.unexpectedIn found .timestamp .timestamp) found.pos := by
  unfold timestamp
  cases take? (·.kind == .number) ts with
  | some t => rfl
  | none =>
    cases take? (fun t => (sign? t).isSome) ts with
    | some sign => exact reading_then fun _ => rfl
    | none =>
      cases take? (·.isWord ["start", "end"]) ts with
      | some word => exact reading_then fun _ => reading_then fun _ => rfl
      | none => rfl

theorem reading_range (stop calls start : Nat) (node : Expr) (ts : List Token) :
    reading (range stop calls start node ts) = (do
      let (range, ts) ← reading (expect stop .duration .range ts)
      match take? (·.kind == .colon) ts with
      | some colon =>
        let step := subqueryStep colon.rest
        let (_, ts) ← reading (expect stop .rightBracket .subquery step.rest)
        let type ← node.typeWithin calls
        if type = .instant then
          return (.subquery node.pos node range.value step.value, ts)
        else fail (.subqueryType type) start
      | none =>
        let (_, ts) ← reading (expect stop .rightBracket .matrix ts)
        match node with
        | .selector s => return (.matrix s.pos s range.value, ts)
        | _ => fail .rangeTarget start) := by
  unfold range
  apply reading_then
  intro range
  simp only
  cases take? (·.kind == .colon) range.rest with
  | some colon =>
    simp only
    apply reading_then
    intro closing
    rw [reading_bind]
    congr 1
    funext type
    by_cases h : type = .instant <;> simp only [h, if_true, if_false] <;> rfl
  | none =>
    apply reading_then
    intro closing
    cases node <;> rfl

theorem reading_suffixes (stop calls : Nat) (node : Expr) (ms : Modifiers) (ts : List Token) :
    reading (suffixes stop calls node ms ts) =
      match take? (·.kind == .leftBracket) ts with
      | some bracket => do
        checkRange ms node bracket.value.pos ts
        let (inner, ts) ← reading (range stop (calls - 1) bracket.value.pos node bracket.rest)
        reading (suffixes stop calls inner .none ts)
      | none =>
        match take? (·.isWord ["offset"]) ts with
        | some word => do
          let ms ← ms.insert .offset node word.value.pos
          let (_, ts) ← reading (offset stop word.rest)
          reading (suffixes stop calls node ms ts)
        | none =>
          match take? (·.kind == .atSign) ts with
          | some sign => do
            let ms ← ms.insert .atSign node sign.value.pos
            let (_, ts) ← reading (timestamp stop sign.rest)
            reading (suffixes stop calls node ms ts)
          | none => .ok (node, ts) := by
  rw [suffixes]
  cases take? (·.kind == .leftBracket) ts with
  | some bracket =>
    simp only
    rw [reading_bind]
    congr 1
    funext _
    apply reading_then
    intro inner
    simp only
    cases suffixes stop calls inner.value .none inner.rest <;> rfl
  | none =>
    cases take? (·.isWord ["offset"]) ts with
    | some word =>
      simp only
      rw [reading_bind]
      congr 1
      funext ms
      apply reading_then
      intro amount
      simp only
      cases suffixes stop calls node ms amount.rest <;> rfl
    | none =>
      cases take? (·.kind == .atSign) ts with
      | some sign =>
        simp only
        rw [reading_bind]
        congr 1
        funext ms
        apply reading_then
        intro time
        simp only
        cases suffixes stop calls node ms time.rest <;> rfl
      | none => rfl

/-! ## Calls and aggregations -/

theorem reading_call (stop : Nat) (argument : Parser Expr) (function : Token) (ts : List Token) :
    reading (call stop argument function ts) =
      match signature? function.value with
      | none => fail (.unknownFunction function.value) function.pos
      | some s => do
        let (_, ts) ← reading (expect stop .leftParen .call ts)
        let (args, ts) ← reading (separated stop .rightParen .call argument ts)
        return (← checkCall function.pos s args, ts) := by
  unfold call
  cases signature? function.value with
  | none => rfl
  | some s =>
    apply reading_then
    intro opening
    apply reading_then
    intro args
    simp only
    cases checkCall function.pos s args.value <;> rfl

theorem reading_grouping (stop : Nat) (ts : List Token) :
    reading (grouping stop ts) =
      match take? (·.isWord ["by", "without"]) ts with
      | none => .ok (none, ts)
      | some word => do
        let (labels, ts) ← reading (labelList stop .groupingClause word.rest)
        return (some ⟨labels, word.value.value.toLower == "without"⟩, ts) := by
  unfold grouping
  cases take? (·.isWord ["by", "without"]) ts with
  | none => rfl
  | some word =>
    apply reading_then
    intro labels
    rfl

theorem reading_aggregation (stop : Nat) (argument : Parser Expr) (pos : Nat) (op : AggregateOp)
    (ts : List Token) :
    reading (aggregation stop argument pos op ts) = (do
      let (leading, ts) ← reading (grouping stop ts)
      let (_, ts) ← reading (expect stop .leftParen .aggregation ts)
      let (args, ts) ← reading (separated stop .rightParen .aggregation argument ts)
      let (trailing, ts) ← reading (grouping stop ts)
      if leading.isSome && trailing.isSome then fail .groupedTwice pos
      else
        let g := (leading.or trailing).getD .none
        return (← checkAggregate pos op g args, ts)) := by
  unfold aggregation
  apply reading_then
  intro leading
  apply reading_then
  intro opening
  apply reading_then
  intro args
  apply reading_then
  intro trailing
  by_cases h : (leading.value.isSome && trailing.value.isSome) = true
  · simp only [h, if_true]
    rfl
  · simp only [h, if_false, Bool.false_eq_true]
    cases checkAggregate pos op ((leading.value.or trailing.value).getD .none) args.value <;> rfl

/-! ## Operands and expressions -/

theorem reading_named (stop : Nat) (argument : Parser Expr) (name : Token) (ts : List Token) :
    reading (named stop argument name ts) =
      match aggregateStart? name (current stop ts), numberWord? name with
      | some op, _ => reading (aggregation stop argument name.pos op ts)
      | none, number? =>
        if (current stop ts).kind = .leftParen then reading (call stop argument name ts)
        else match number? with
          | some x => .ok (.number name.pos (.double x), ts)
          | none =>
            if name.value.toLower ∈ reservedWords then fail (.unexpected name) name.pos
            else do
              let (s, ts) ← reading (selector stop name.pos name.value ts)
              return (.selector s, ts) := by
  unfold named
  simp only
  cases aggregateStart? name (current stop ts) with
  | some op =>
    simp only
    cases aggregation stop argument name.pos op ts <;> rfl
  | none =>
    simp only
    split
    · cases call stop argument name ts <;> rfl
    · cases numberWord? name with
      | some x => rfl
      | none =>
        simp only
        split
        · rfl
        · cases selector stop name.pos name.value ts <;> rfl

theorem reading_primary (stop : Nat) (nested : Nat → Parser Expr) (t : Token)
    (ts : List Token) :
    reading (primary stop nested (t :: ts)) =
      match t.kind with
      | .number | .duration =>
        match numberValue t.value.toList with
        | .ok value => .ok (.number t.pos value, ts)
        | .error fault => .error (.number fault)
      | .text => .ok (.text t.pos t.value, ts)
      | .leftParen => do
        let (inner, ts) ← reading (nested 1 ts)
        let (_, ts) ← reading (expect stop .rightParen .paren ts)
        return (.paren t.pos inner, ts)
      | .leftBrace => do
        let (s, ts) ← reading (conditions stop t.pos "" ts)
        return (.selector s, ts)
      | .identifier => reading (named stop (nested 3) t ts)
      | _ => fail (.unexpected t) t.pos := by
  unfold primary
  simp only
  cases t.kind with
  | number => cases numberValue t.value.toList <;> rfl
  | duration => cases numberValue t.value.toList <;> rfl
  | leftParen =>
    apply reading_then
    intro inner
    simp only
    cases expect stop .rightParen .paren inner.rest <;> rfl
  | leftBrace => exact reading_then fun _ => rfl
  | _ => rfl

theorem reading_operandWith (stop calls : Nat) (operand : Parser Expr)
    (nested : Nat → Parser Expr) (ts : List Token) :
    reading (operandWith stop calls operand nested ts) =
      match take? (fun t => (sign? t).isSome) ts with
      | some sign => do
        let (e, ts) ← reading (operand sign.rest)
        return (← applySign sign.value.pos ((sign? sign.value).getD .plus) e, ts)
      | none => (do
        let (node, ts) ← reading (primary stop nested ts)
        reading (suffixes stop (calls - 1) node .none ts)) := by
  unfold operandWith
  cases take? (fun t => (sign? t).isSome) ts with
  | some sign =>
    apply reading_then
    intro e
    simp only
    cases applySign sign.value.pos ((sign? sign.value).getD .plus) e.value <;> rfl
  | none =>
    apply reading_then
    intro inner
    simp only
    cases suffixes stop (calls - 1) inner.value .none inner.rest <;> rfl

theorem reading_climb (stop calls : Nat) (expression : Nat → Parser Expr) (level : Nat)
    (lhs : Expr) (t : Token) (ts : List Token) :
    reading (climb stop calls expression level lhs (t :: ts)) =
      match binaryOp? t with
      | none => .ok (lhs, t :: ts)
      | some op =>
        if op.precedence < level then .ok (lhs, t :: ts)
        else (do
          let (returnBool, ts) ← reading (boolModifier op ts)
          let (_, ts) ← reading (vectorMatching stop op ts)
          let (rhs, ts) ← reading (expression op.rightLevel ts)
          let node ← checkBinary (calls - 1) t.pos op lhs rhs returnBool
          reading (climb stop calls expression level node ts)) := by
  rw [climb]
  cases binaryOp? t with
  | none => rfl
  | some op =>
    simp only
    split
    · rfl
    · apply reading_then
      intro returnBool
      apply reading_then
      intro matching
      apply reading_then
      intro rhs
      rw [reading_bind]
      congr 1
      funext node
      simp only
      cases climb stop calls expression level node rhs.rest <;> rfl

theorem reading_expressionWith (stop calls : Nat) (operand : Parser Expr)
    (expression : Nat → Parser Expr) (level : Nat) (ts : List Token) :
    reading (expressionWith stop calls operand expression level ts) = (do
      let (lhs, ts) ← reading (operand ts)
      reading (climb stop calls expression level lhs ts)) := by
  unfold expressionWith
  apply reading_then
  intro lhs
  simp only
  cases climb stop calls expression level lhs.value lhs.rest <;> rfl

/-- Some tokens are an expression if none of them is left behind one. -/
theorem parseTokens_eq_ok {stop limit : Nat} {ts : List Token} {e : Expr} :
    parseTokens stop ts limit = .ok e ↔ reading (expression stop limit 0 ts) = .ok (e, []) := by
  rw [reading_eq_ok]
  cases ts with
  | nil =>
    constructor
    · exact fun h => absurd h fail_ne_ok
    · rintro ⟨p, -⟩
      exact absurd p.shorter (Nat.not_lt_zero _)
  | cons t ts =>
    rw [parseTokens, List.isEmpty_cons, if_neg Bool.false_ne_true, bind_eq_ok]
    refine exists_congr fun p => and_congr_right fun _ => ?_
    cases hrest : p.rest with
    | nil => simp [pure, Except.pure]
    | cons t rest => simp [fail]

end PanelExport.Query
