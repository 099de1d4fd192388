import PanelExport.Proofs.Query.Alike

/-!
# Grouping clauses

The labels that an aggregation is grouped by stand in front of its arguments or behind them. The
arguments are read in between, and what is read of them does not depend on what stands behind the
parenthesis that closes them. So both places of the clause give the same tree, and there is no
expression with a clause in each of them.

* `GroupingClause.reads`: a clause is taken off the front of any tokens.
* `IsExpression.reads_anywhere`, `Arguments.reads_anywhere`: what is read as an expression, or as
  arguments, is so with anything else behind the end of them.
* `parseTokens_leading`, `parseTokens_trailing`: both places of the clause leave it to the same
  tokens to go on with the aggregation.
* `Grouped.between`: what stands between the arguments and the rest does not matter.
* `grouping_on_either_side`: whole rows of tokens.
-/

namespace PanelExport.Query

/-! ## Clauses -/

/-- Labels with commas between them, up to and with the parenthesis that closes them; a comma may
also stand before it. -/
inductive LabelRow : List Token → List String → Prop where
  | closed {t : Token} (closes : t.kind = .rightParen) : LabelRow [t] []
  | last {label t : Token} (isLabel : label.kind = .identifier ∨ label.kind = .text)
      (closes : t.kind = .rightParen) : LabelRow [label, t] [label.value]
  | more {label comma : Token} {ts : List Token} {labels : List String}
      (isLabel : label.kind = .identifier ∨ label.kind = .text) (separates : comma.kind = .comma)
      (others : LabelRow ts labels) : LabelRow (label :: comma :: ts) (label.value :: labels)

/-- The tokens of a grouping clause, with what they say. -/
inductive GroupingClause : List Token → Grouping → Prop where
  | labels {word opening : Token} {ts : List Token} {labels : List String}
      (isClause : word.isWord ["by", "without"] = true) (opens : opening.kind = .leftParen)
      (row : LabelRow ts labels) :
      GroupingClause (word :: opening :: ts) ⟨labels, word.value.toLower == "without"⟩

/-- Nothing follows that starts a grouping clause. -/
def EndsGrouping (rest : List Token) : Prop :=
  ∀ t ∈ rest.head?, t.isWord ["by", "without"] = false

variable {stop stop' : Nat} {clause rest : List Token} {g : Grouping}

theorem LabelRow.separated {ts : List Token} {labels : List String} (h : LabelRow ts labels)
    (stop : Nat) (place : Place) (rest : List Token) :
    Separated (Reads (label stop place)) .rightParen (ts ++ rest) labels rest := by
  have starts {label : Token} (h : label.kind = .identifier ∨ label.kind = .text)
      (ts : List Token) : ∀ t ∈ (label :: ts).head?, t.kind ≠ .rightParen := by
    rintro _ ⟨⟩
    rcases h with hk | hk <;> simp [hk]
  have first {label : Token} (h : label.kind = .identifier ∨ label.kind = .text)
      (ts : List Token) : Reads (Query.label stop place) (label :: ts) label.value ts :=
    reading_label_eq_ok.2 ⟨label, h, rfl, rfl⟩
  induction h with
  | closed closes => exact .closed closes
  | last isLabel closes => exact .last (starts isLabel _) (first isLabel _) closes
  | more isLabel separates _ ih => exact .more (starts isLabel _) (first isLabel _) separates ih

/-- A clause is taken off the front of any tokens. -/
theorem GroupingClause.reads (h : GroupingClause clause g) (stop : Nat) (rest : List Token) :
    reading (grouping stop (clause ++ rest)) = .ok (some g, rest) := by
  obtain @⟨word, opening, ts, labels, isClause, opens, row⟩ := h
  have hlabels : reading (separated stop .rightParen .groupingClause (label stop .groupingClause)
      (ts ++ rest)) = .ok (labels, rest) :=
    (separated_iff (by decide)).2 (row.separated stop .groupingClause rest)
  have hopening : reading (expect stop .leftParen .groupingClause (opening :: (ts ++ rest))) =
      .ok (opening, ts ++ rest) := reading_expect_eq_ok.2 ⟨opens, rfl⟩
  rw [reading_grouping, List.cons_append, List.cons_append, take?_eq_some isClause]
  simp only [reading_labelList, hopening, hlabels, bind, Except.bind, pure, Except.pure]

theorem EndsGrouping.reads (h : EndsGrouping rest) (stop : Nat) :
    reading (grouping stop rest) = .ok (none, rest) := by
  rw [reading_grouping, take?_eq_none_iff.2 h]

/-- A clause is read unless nothing starts one. -/
theorem endsGrouping_of_reading (h : reading (grouping stop clause) = .ok (none, rest)) :
    EndsGrouping clause := by
  rw [reading_grouping] at h
  split at h
  · exact take?_eq_none_iff.1 ‹_›
  · obtain ⟨_, -, h⟩ := bind_eq_ok.1 h
    cases h

/-! ## Arguments -/

/-- The tokens are an expression, within some limit. -/
def IsExpression (ts : List Token) : Prop := ∃ stop limit e, parseTokens stop ts limit = .ok e

/-- Expressions with commas between them; a comma may also stand behind the last one. -/
inductive Arguments : List Token → Prop where
  | none : Arguments []
  | last {ts : List Token} (isExpression : IsExpression ts) : Arguments ts
  | more {ts row : List Token} {comma : Token} (isExpression : IsExpression ts)
      (separates : comma.kind = .comma) (others : Arguments row) : Arguments (ts ++ comma :: row)

section

variable {ts row tail mid : List Token} {calls : Nat} {closing : Token} {e : Expr}
  {es : List Expr}

/-- What is read as an expression is so with any other end behind it. -/
theorem IsExpression.reads_anywhere (h : IsExpression ts) (hclosed : Closed tail)
    (he : Reads (expression stop calls 0) (ts ++ tail) e mid) :
    mid = tail ∧ ∀ stop' tail', Closed tail' →
      ∃ f, Reads (expression stop' calls 0) (ts ++ tail') f tail' ∧ e.Like f := by
  obtain ⟨start, limit, e₀, h₀⟩ := h
  obtain ⟨p, hp, rfl, hrest⟩ := reading_eq_ok.1 (parseTokens_eq_ok.1 h₀)
  have anywhere (stop' : Nat) (tail' : List Token) (hclosed : Closed tail') :
      Agree tail' Expr.unplaced (expression start limit 0 ts) (expression start calls 0 ts)
        (expression stop' calls 0 (ts ++ tail')) :=
    (levels_agree hclosed limit calls).2 0 ts _ (.of_alike rfl tail')
  obtain ⟨q, hq, rfl, rfl⟩ := reading_eq_ok.1 he
  rcases anywhere stop tail hclosed p hp with ⟨hx, q', hq', hl, hr⟩ | ⟨-, hy⟩
  · obtain rfl := Except.ok.inj (hq.symm.trans hq')
    rw [hrest] at hr
    refine ⟨hr.nil_left, fun stop' tail' hclosed' => ?_⟩
    rcases anywhere stop' tail' hclosed' p hp with ⟨-, r, hr', hl', hrest'⟩ | ⟨hx', -⟩
    · rw [hrest] at hrest'
      exact ⟨r.value, reading_eq_ok.2 ⟨r, hr', rfl, hrest'.nil_left⟩, hl.symm.trans hl'⟩
    · exact absurd (hx'.symm.trans hx) fail_ne_ok
  · exact absurd (hy.symm.trans hq) fail_ne_ok

/-- No operand starts with a parenthesis that closes. -/
theorem operand_starts (h : Reads (operand stop calls) ts e mid) :
    ∀ t ∈ ts.head?, t.kind ≠ .rightParen := by
  rintro t ht hk
  cases calls with
  | zero =>
    rw [Reads, operand_zero] at h
    exact absurd h fail_ne_ok
  | succ calls =>
    obtain ⟨ts, rfl⟩ := List.head?_eq_some_iff.1 ht
    have hsign : take? (fun t => (sign? t).isSome) (t :: ts) = none :=
      take?_eq_none_iff.2 (by simp [sign?, hk])
    rw [Reads, operand, reading_operandWith, hsign] at h
    simp only [reading_primary, hk] at h
    exact absurd h fail_ne_ok

theorem IsExpression.starts (h : IsExpression ts) (tail : List Token) :
    ∀ t ∈ (ts ++ tail).head?, t.kind ≠ .rightParen := by
  obtain ⟨stop, limit, e, h⟩ := h
  have he : Reads (expression stop limit 0) ts e [] := parseTokens_eq_ok.1 h
  cases limit with
  | zero =>
    rw [Reads, expression_zero] at he
    exact absurd he fail_ne_ok
  | succ calls =>
    cases ts with
    | nil => exact absurd (length_lt_of_reading he) (Nat.not_lt_zero _)
    | cons t ts =>
      rw [Reads, expression, reading_expressionWith] at he
      obtain ⟨⟨lhs, mid⟩, hlhs, -⟩ := bind_eq_ok.1 he
      have starts := operand_starts hlhs
      exact starts

/-- The first of the items and what stands behind it, where no closing token stands in front. -/
theorem Separated.first {α : Type} {item : List Token → α → List Token → Prop} {close : Kind}
    {as : List α} (h : Separated item close ts as rest) (starts : ∀ t ∈ ts.head?, t.kind ≠ close) :
    ∃ a as' t mid, as = a :: as' ∧ item ts a (t :: mid) ∧
      ((t.kind = close ∧ as' = [] ∧ mid = rest) ∨
        (t.kind = .comma ∧ Separated item close mid as' rest)) := by
  cases h with
  | closed closes => exact absurd closes (starts _ rfl)
  | last _ first closes => exact ⟨_, _, _, _, rfl, first, .inl ⟨closes, rfl, rfl⟩⟩
  | more _ first separates others => exact ⟨_, _, _, _, rfl, first, .inr ⟨separates, others⟩⟩

/-- What is read as arguments is so with anything else behind the closing parenthesis. -/
theorem Arguments.reads_anywhere (h : Arguments row) (hclosing : closing.kind = .rightParen)
    (hes : Separated (Reads (expression stop calls 0)) .rightParen (row ++ closing :: rest) es
      mid) :
    mid = rest ∧ ∀ stop' rest', ∃ fs, Separated (Reads (expression stop' calls 0)) .rightParen
      (row ++ closing :: rest') fs rest' ∧ es.map Expr.unplaced = fs.map Expr.unplaced := by
  have hclosed (rest : List Token) : Closed (closing :: rest) := by simp [Closed, hclosing]
  have hcomma {comma : Token} (h : comma.kind = .comma) (rest : List Token) :
      Closed (comma :: rest) := by simp [Closed, h]
  induction h generalizing es with
  | none =>
    cases hes with
    | closed => exact ⟨rfl, fun _ _ => ⟨[], .closed hclosing, rfl⟩⟩
    | last starts => exact absurd hclosing (starts closing rfl)
    | more starts => exact absurd hclosing (starts closing rfl)
  | @last ts isExpression =>
    obtain ⟨a, as, t, mid', rfl, ha, hmore⟩ := hes.first (isExpression.starts _)
    obtain ⟨hmid, hreads⟩ := isExpression.reads_anywhere (hclosed rest) ha
    obtain ⟨rfl, rfl⟩ := List.cons.inj hmid
    rcases hmore with ⟨-, rfl, rfl⟩ | ⟨hk, -⟩
    · refine ⟨rfl, fun stop' rest' => ?_⟩
      obtain ⟨f, hf, hl⟩ := hreads stop' (t :: rest') (hclosed rest')
      exact ⟨[f], .last (isExpression.starts _) hf hclosing, congrArg ([·]) hl⟩
    · exact absurd (hclosing.symm.trans hk) (by decide)
  | @more ts row comma isExpression separates others ih =>
    rw [List.append_assoc] at hes
    obtain ⟨a, as, t, mid', rfl, ha, hmore⟩ := hes.first (isExpression.starts _)
    obtain ⟨hmid, hreads⟩ := isExpression.reads_anywhere (hcomma separates _) ha
    obtain ⟨rfl, rfl⟩ := List.cons.inj hmid
    rcases hmore with ⟨hk, -⟩ | ⟨-, hmore⟩
    · exact absurd (separates.symm.trans hk) (by decide)
    · obtain ⟨rfl, hothers⟩ := ih hmore
      refine ⟨rfl, fun stop' rest' => ?_⟩
      obtain ⟨f, hf, hl⟩ := hreads stop' (t :: (row ++ closing :: rest')) (hcomma separates _)
      obtain ⟨fs, hfs, hls⟩ := hothers stop' rest'
      rw [List.append_assoc]
      exact ⟨f :: fs, .more (isExpression.starts _) hf separates hfs, congrArg₂ List.cons hl hls⟩

end

/-! ## Aggregations -/

section

variable {argument : Parser Expr} {pos : Nat} {op : AggregateOp} {opening : Token}
  {ts : List Token} {e : Expr}

/-- With a clause in front of the arguments, none starts behind them. -/
theorem reading_aggregation_leading (hclause : GroupingClause clause g)
    (hopening : opening.kind = .leftParen) :
    reading (aggregation stop argument pos op (clause ++ opening :: ts)) = .ok (e, rest) ↔
      ∃ es, Separated (Reads argument) .rightParen ts es rest ∧ EndsGrouping rest ∧
        checkAggregate pos op g es = .ok e := by
  have hfront := hclause.reads stop (opening :: ts)
  have hopens : reading (expect stop .leftParen .aggregation (opening :: ts)) =
      .ok (opening, ts) := reading_expect_eq_ok.2 ⟨hopening, rfl⟩
  rw [aggregation_iff]
  constructor
  · rintro @⟨_, ts₂, ts₃, _, leading, trailing, _, es, _, front, opens, arguments, back, once,
      allowed⟩
    obtain ⟨rfl, rfl⟩ := Prod.mk.inj (Except.ok.inj (hfront.symm.trans front))
    obtain ⟨-, rfl⟩ := Prod.mk.inj (Except.ok.inj (hopens.symm.trans opens))
    obtain rfl : trailing = none := by simpa using once
    have hends := endsGrouping_of_reading back
    obtain ⟨-, rfl⟩ := Prod.mk.inj (Except.ok.inj ((hends.reads stop).symm.trans back))
    exact ⟨es, (separated_iff (by decide)).1 arguments, hends, allowed⟩
  · rintro ⟨es, hes, hends, allowed⟩
    exact ⟨hfront, hopens, (separated_iff (by decide)).2 hes, hends.reads stop, by simp, allowed⟩

/-- Without a clause in front of the arguments, one may stand behind them. -/
theorem reading_aggregation_trailing (hopening : opening.kind = .leftParen) :
    reading (aggregation stop argument pos op (opening :: ts)) = .ok (e, rest) ↔
      ∃ es mid trailing, Separated (Reads argument) .rightParen ts es mid ∧
        reading (grouping stop mid) = .ok (trailing, rest) ∧
        checkAggregate pos op (trailing.getD .none) es = .ok e := by
  have hends : EndsGrouping (opening :: ts) := by
    rintro t ⟨⟩
    exact opening.isWord_of_kind (by simp [hopening]) _
  have hopens : reading (expect stop .leftParen .aggregation (opening :: ts)) =
      .ok (opening, ts) := reading_expect_eq_ok.2 ⟨hopening, rfl⟩
  rw [aggregation_iff]
  constructor
  · rintro @⟨_, ts₂, ts₃, _, leading, trailing, _, es, _, front, opens, arguments, back, -,
      allowed⟩
    obtain ⟨rfl, rfl⟩ := Prod.mk.inj (Except.ok.inj ((hends.reads stop).symm.trans front))
    obtain ⟨-, rfl⟩ := Prod.mk.inj (Except.ok.inj (hopens.symm.trans opens))
    exact ⟨es, ts₃, trailing, (separated_iff (by decide)).1 arguments, back, allowed⟩
  · rintro ⟨es, mid, trailing, hes, back, allowed⟩
    exact ⟨hends.reads stop, hopens, (separated_iff (by decide)).2 hes, back, by simp, allowed⟩

end

/-! ## Whole rows -/

/-- Suffixes and right operands behind a node make it an expression, up to the last token, where the
parser of the node left so many calls for what nests in it. -/
def Completes (stop calls : Nat) (node : Expr) (rest : List Token) (e : Expr) : Prop :=
  ∃ inner mid, reading (suffixes stop (calls - 1) node .none rest) = .ok (inner, mid) ∧
    reading (climb stop (calls + 1) (expression stop (calls + 1)) 0 inner mid) = .ok (e, [])

/-- Arguments are read from some tokens up to those behind them, and their aggregation is an
expression with what is left behind the clause. -/
def Grouped (stop limit : Nat) (name : Token) (op : AggregateOp) (g : Grouping)
    (ts behind rest : List Token) (e : Expr) : Prop :=
  ∃ calls es node, limit = calls + 2 ∧
    Separated (Reads (expression stop (calls - 3) 0)) .rightParen ts es behind ∧
    checkAggregate name.pos op g es = .ok node ∧ Completes stop calls node rest e

section

variable {calls limit : Nat} {node node' e : Expr} {name opening closing : Token} {op : AggregateOp}
  {ts row : List Token}

theorem Completes.like (hnode : node.Like node') (h : Completes stop calls node rest e) :
    ∃ f, Completes stop' calls node' rest f ∧ e.Like f := by
  have hclosed : Closed [] := nofun
  have hrest : Continued [] rest rest := ⟨rest, (List.append_nil rest).symm, rfl⟩
  obtain ⟨_, _, hs, hc⟩ := h
  obtain ⟨p, hp, rfl, rfl⟩ := reading_eq_ok.1 hs
  obtain ⟨q, hq, rfl, hnil⟩ := reading_eq_ok.1 hc
  have hsuffixes : Agree [] Expr.unplaced (suffixes stop (calls - 1) node .none rest)
      (suffixes stop (calls - 1) node .none rest) (suffixes stop' (calls - 1) node' .none rest) :=
    suffixes_agree hclosed hnode .none hrest
  obtain ⟨p', hp', hinner, hmid⟩ := hsuffixes.reads hp
  have hclimb : Agree [] Expr.unplaced
      (climb stop (calls + 1) (expression stop (calls + 1)) 0 p.value p.rest)
      (climb stop (calls + 1) (expression stop (calls + 1)) 0 p.value p.rest)
      (climb stop' (calls + 1) (expression stop' (calls + 1)) 0 p'.value p'.rest) :=
    climb_agree hclosed (levels_agree hclosed (calls + 1) (calls + 1)).2 0 hinner hmid
  obtain ⟨q', hq', hl, hleft⟩ := hclimb.reads hq
  rw [hnil] at hleft
  exact ⟨q'.value, ⟨p'.value, p'.rest, reading_eq_ok.2 ⟨p', hp', rfl, rfl⟩,
    reading_eq_ok.2 ⟨q', hq', rfl, hleft.nil_left⟩⟩, hl⟩

/-- Nothing goes on with an expression that starts a grouping clause. -/
theorem Completes.endsGrouping (h : Completes stop calls node rest e) : EndsGrouping rest := by
  obtain ⟨inner, mid, hs, hc⟩ := h
  rintro t ht
  rw [Bool.eq_false_iff]
  intro hword
  obtain ⟨hk, hv⟩ := (t.isWord_iff _).1 hword
  obtain ⟨rest, rfl⟩ := List.head?_eq_some_iff.1 ht
  have hfree : ∀ word ∈ ["by", "without"], word ∉ ["offset"] ∧
      wordOperators.find? (fun op => op.symbol == word) = none := by
    decide
  have hsuffix : ∀ u ∈ (t :: rest).head?, u.isSuffix = false := by
    rintro _ ⟨⟩
    have hoffset : t.isWord ["offset"] = false :=
      Bool.eq_false_iff.2 fun h => (hfree _ hv).1 ((t.isWord_iff _).1 h).2
    simp [Token.isSuffix, hk, hoffset]
  have hop : ∀ op ∈ nextOp? (t :: rest), op.precedence < 0 := by
    simp [nextOp?, binaryOp?, hk, (hfree _ hv).2]
  obtain ⟨rfl, rfl⟩ := Prod.mk.inj (Except.ok.inj ((suffixes_iff.2 (.done hsuffix)).symm.trans hs))
  exact absurd (Prod.mk.inj (Except.ok.inj ((climb_stays hop).symm.trans hc))).2
    (List.cons_ne_nil t rest)

/-- An aggregation is an expression with what stands behind it, if an operand may be read at all. -/
theorem parseTokens_aggregation (hname : name.kind = .identifier)
    (hstart : aggregateStart? name (current stop ts) = some op) :
    parseTokens stop (name :: ts) limit = .ok e ↔ ∃ calls node rest, limit = calls + 2 ∧
      reading (aggregation stop (expression stop (calls - 3) 0) name.pos op ts) =
        .ok (node, rest) ∧ Completes stop calls node rest e := by
  have hsign : take? (fun t => (sign? t).isSome) (name :: ts) = none :=
    take?_eq_none_iff.2 (by simp [sign?, hname])
  have hread (calls : Nat) : reading (expression stop (calls + 2) 0 (name :: ts)) = .ok (e, []) ↔
      ∃ node rest, reading (aggregation stop (expression stop (calls - 3) 0) name.pos op ts) =
        .ok (node, rest) ∧ Completes stop calls node rest e := by
    rw [expression, reading_expressionWith, operand, reading_operandWith, hsign]
    simp only [reading_primary, hname, reading_named, hstart, bind_eq_ok, Prod.exists, Completes]
    constructor
    · rintro ⟨inner, mid, ⟨node, rest, hn, hs⟩, hc⟩
      exact ⟨node, rest, hn, inner, mid, hs, hc⟩
    · rintro ⟨node, rest, hn, inner, mid, hs, hc⟩
      exact ⟨inner, mid, ⟨node, rest, hn, hs⟩, hc⟩
  rw [parseTokens_eq_ok]
  constructor
  · intro h
    have htwo : 2 ≤ limit := by
      by_contra hsmall
      obtain rfl | rfl : limit = 0 ∨ limit = 1 := by omega
      · rw [expression_zero] at h
        exact absurd h fail_ne_ok
      · rw [expression, reading_expressionWith, operand_zero] at h
        exact absurd h fail_ne_ok
    obtain ⟨calls, rfl⟩ := Nat.exists_eq_add_of_le' htwo
    obtain ⟨node, rest, hn, hc⟩ := (hread calls).1 h
    exact ⟨calls, node, rest, rfl, hn, hc⟩
  · rintro ⟨calls, node, rest, rfl, hn, hc⟩
    exact (hread calls).2 ⟨node, rest, hn, hc⟩

/-- What stands between the arguments and the rest does not matter. -/
theorem Grouped.between (hrow : Arguments row) (hclosing : closing.kind = .rightParen)
    {behind : List Token}
    (h : Grouped stop limit name op g (row ++ closing :: behind) behind rest e)
    (behind' : List Token) :
    ∃ f, Grouped stop limit name op g (row ++ closing :: behind') behind' rest f ∧ f.Like e := by
  obtain ⟨calls, es, node, hlimit, hes, allowed, hcompletes⟩ := h
  obtain ⟨-, hreads⟩ := hrow.reads_anywhere hclosing hes
  obtain ⟨fs, hfs, hl⟩ := hreads stop behind'
  obtain ⟨node', allowed', hnode⟩ := checkAggregate_like hl allowed
  obtain ⟨f, hcompletes', hf⟩ := hcompletes.like hnode
  exact ⟨f, ⟨calls, fs, node', hlimit, hfs, allowed', hcompletes'⟩, hf.symm⟩

/-- The token behind the name of an aggregation tells it from a metric. -/
theorem aggregateStart?_clause (hop : AggregateOp.ofName? name.value.toLower = some op)
    (hclause : GroupingClause clause g) (rest : List Token) :
    aggregateStart? name (current stop (clause ++ rest)) = some op := by
  obtain ⟨isClause, -, -⟩ := hclause
  rw [aggregateStart?, List.cons_append, current, if_pos (.inr isClause), hop]

variable (hname : name.kind = .identifier)
  (hop : AggregateOp.ofName? name.value.toLower = some op) (hclause : GroupingClause clause g)
  (hopening : opening.kind = .leftParen) (hrow : Arguments row)
  (hclosing : closing.kind = .rightParen)

include hname hop hclause hopening hrow hclosing

/-- With the clause in front of them, the arguments are read, and what stands behind goes on. -/
theorem parseTokens_leading :
    parseTokens stop (name :: (clause ++ opening :: (row ++ closing :: rest))) limit = .ok e ↔
      Grouped stop limit name op g (row ++ closing :: rest) rest rest e := by
  rw [parseTokens_aggregation hname (aggregateStart?_clause hop hclause _)]
  simp only [reading_aggregation_leading hclause hopening]
  constructor
  · rintro ⟨calls, node, mid, hlimit, ⟨es, hes, -, allowed⟩, hcompletes⟩
    obtain ⟨rfl, -⟩ := hrow.reads_anywhere hclosing hes
    exact ⟨calls, es, node, hlimit, hes, allowed, hcompletes⟩
  · rintro ⟨calls, es, node, hlimit, hes, allowed, hcompletes⟩
    exact ⟨calls, node, rest, hlimit, ⟨es, hes, hcompletes.endsGrouping, allowed⟩, hcompletes⟩

/-- With the clause behind them, the arguments are read, and what stands behind the clause goes
on. -/
theorem parseTokens_trailing :
    parseTokens stop (name :: opening :: (row ++ closing :: (clause ++ rest))) limit = .ok e ↔
      Grouped stop limit name op g (row ++ closing :: (clause ++ rest)) (clause ++ rest) rest e := by
  have hstart : aggregateStart? name
      (current stop (opening :: (row ++ closing :: (clause ++ rest)))) = some op := by
    rw [aggregateStart?, current, if_pos (.inl hopening), hop]
  rw [parseTokens_aggregation hname hstart]
  simp only [reading_aggregation_trailing hopening]
  have hback := hclause.reads stop rest
  constructor
  · rintro ⟨calls, node, mid, hlimit, ⟨es, mid', trailing, hes, back, allowed⟩, hcompletes⟩
    obtain ⟨rfl, -⟩ := hrow.reads_anywhere hclosing hes
    obtain ⟨rfl, rfl⟩ := Prod.mk.inj (Except.ok.inj (hback.symm.trans back))
    exact ⟨calls, es, node, hlimit, hes, allowed, hcompletes⟩
  · rintro ⟨calls, es, node, hlimit, hes, allowed, hcompletes⟩
    exact ⟨calls, node, rest, hlimit, ⟨es, clause ++ rest, some g, hes, hback, allowed⟩,
      hcompletes⟩

/-- Both places of the clause give the same tree. -/
theorem parseTokens_grouping_swap :
    (parseTokens stop (name :: (clause ++ opening :: (row ++ closing :: rest))) limit).toOption.map
        Expr.unplaced =
      (parseTokens stop (name :: opening :: (row ++ closing :: (clause ++ rest)))
        limit).toOption.map Expr.unplaced := by
  refine Option.ext fun e => ?_
  simp only [Option.map_eq_some_iff, toOption_eq_some,
    parseTokens_leading hname hop hclause hopening hrow hclosing,
    parseTokens_trailing hname hop hclause hopening hrow hclosing]
  constructor
  · rintro ⟨e, he, rfl⟩
    exact he.between hrow hclosing (clause ++ rest)
  · rintro ⟨e, he, rfl⟩
    exact he.between hrow hclosing rest

/-- No expression has a clause on both sides of the arguments. -/
theorem parseTokens_grouped_twice {clause' : List Token} {g' : Grouping}
    (hclause' : GroupingClause clause' g') :
    parseTokens stop (name :: (clause ++ opening :: (row ++ closing :: (clause' ++ rest)))) limit ≠
      .ok e := by
  rw [Ne, parseTokens_leading hname hop hclause hopening hrow hclosing]
  rintro ⟨calls, es, node, -, -, -, hcompletes⟩
  have hends := hcompletes.endsGrouping
  obtain ⟨isClause, -, -⟩ := hclause'
  exact absurd (hends _ rfl) (by simp [isClause])

variable (rest)

/-- An aggregation with its clause in front of the arguments is an expression exactly if it is one
with the clause behind them, whatever goes on behind it and whatever the limit, and both are the
same tree up to places. With a clause in front and another one behind, it is never an expression. -/
theorem grouping_on_either_side :
    (∀ limit stop stop' ts us,
      Alike ts (name :: (clause ++ opening :: (row ++ closing :: rest))) →
      Alike us (name :: opening :: (row ++ closing :: (clause ++ rest))) →
      (parseTokens stop ts limit).toOption.map Expr.unplaced =
        (parseTokens stop' us limit).toOption.map Expr.unplaced) ∧
    ∀ limit stop ts clause' g', GroupingClause clause' g' →
      Alike ts (name :: (clause ++ opening :: (row ++ closing :: (clause' ++ rest)))) →
      ∃ fault, parseTokens stop ts limit = .error fault := by
  refine ⟨fun limit stop stop' ts us hts hus => ?_,
    fun limit stop ts clause' g' hclause' hts => ?_⟩
  · calc (parseTokens stop ts limit).toOption.map Expr.unplaced
      _ = (parseTokens stop (name :: (clause ++ opening :: (row ++ closing :: rest)))
            limit).toOption.map Expr.unplaced := parseTokens_unplaced limit hts
      _ = (parseTokens stop (name :: opening :: (row ++ closing :: (clause ++ rest)))
            limit).toOption.map Expr.unplaced :=
          parseTokens_grouping_swap hname hop hclause hopening hrow hclosing
      _ = (parseTokens stop' us limit).toOption.map Expr.unplaced :=
          parseTokens_unplaced limit hus.symm
  · cases h : parseTokens stop ts limit with
    | error fault => exact ⟨fault, rfl⟩
    | ok e =>
      obtain ⟨f, hf, -⟩ := parseTokens_alike stop hts h
      exact absurd hf
        (parseTokens_grouped_twice hname hop hclause hopening hrow hclosing hclause')

end

/-- The tokens of `sum by (job) (up) / 2` and of `sum (up) by (job) / 2`, and those with a clause
in both places. -/
theorem grouping_on_either_side_quotient :
    (∃ e, parseTokens 21 [⟨.identifier, "sum", 0⟩, ⟨.identifier, "by", 4⟩, ⟨.leftParen, "(", 7⟩,
        ⟨.identifier, "job", 8⟩, ⟨.rightParen, ")", 11⟩, ⟨.leftParen, "(", 13⟩,
        ⟨.identifier, "up", 14⟩, ⟨.rightParen, ")", 16⟩, ⟨.operator, "/", 18⟩,
        ⟨.number, "2", 20⟩] = .ok e ∧
      some e.unplaced =
        (parseTokens 21 [⟨.identifier, "sum", 0⟩, ⟨.leftParen, "(", 4⟩, ⟨.identifier, "up", 5⟩,
          ⟨.rightParen, ")", 7⟩, ⟨.identifier, "by", 9⟩, ⟨.leftParen, "(", 12⟩,
          ⟨.identifier, "job", 13⟩, ⟨.rightParen, ")", 16⟩, ⟨.operator, "/", 18⟩,
          ⟨.number, "2", 20⟩]).toOption.map Expr.unplaced) ∧
    ∃ fault, parseTokens 34 [⟨.identifier, "sum", 0⟩, ⟨.identifier, "by", 4⟩, ⟨.leftParen, "(", 7⟩,
      ⟨.identifier, "job", 8⟩, ⟨.rightParen, ")", 11⟩, ⟨.leftParen, "(", 13⟩,
      ⟨.identifier, "up", 14⟩, ⟨.rightParen, ")", 16⟩, ⟨.identifier, "by", 18⟩,
      ⟨.leftParen, "(", 21⟩, ⟨.identifier, "job", 22⟩, ⟨.rightParen, ")", 25⟩,
      ⟨.operator, "/", 27⟩, ⟨.number, "2", 29⟩] = .error fault := by
  have clause (a b c d : Nat) : GroupingClause [⟨.identifier, "by", a⟩, ⟨.leftParen, "(", b⟩,
      ⟨.identifier, "job", c⟩, ⟨.rightParen, ")", d⟩] ⟨["job"], "by".toLower == "without"⟩ := by
    have hlower : "by".toLower = "by" := by decide +kernel
    have hby : Token.isWord ["by", "without"] ⟨.identifier, "by", a⟩ = true :=
      (Token.isWord_iff _ _).2 ⟨rfl, List.mem_cons.2 (.inl hlower)⟩
    exact .labels hby rfl (.last (.inl rfl) rfl)
  have hop : AggregateOp.ofName? (Token.value ⟨.identifier, "sum", 0⟩).toLower = some .sum := by
    decide +kernel
  have hrow : Arguments [⟨.identifier, "up", 14⟩] :=
    .last ⟨16, callLimit, exists_of_isOk (by decide +kernel)⟩
  have hname : Token.kind ⟨.identifier, "sum", 0⟩ = .identifier := rfl
  have hopening : Token.kind ⟨.leftParen, "(", 13⟩ = .leftParen := rfl
  have hclosing : Token.kind ⟨.rightParen, ")", 16⟩ = .rightParen := rfl
  obtain ⟨e, he⟩ : ∃ e, parseTokens 21 [⟨.identifier, "sum", 0⟩, ⟨.identifier, "by", 4⟩,
      ⟨.leftParen, "(", 7⟩, ⟨.identifier, "job", 8⟩, ⟨.rightParen, ")", 11⟩, ⟨.leftParen, "(", 13⟩,
      ⟨.identifier, "up", 14⟩, ⟨.rightParen, ")", 16⟩, ⟨.operator, "/", 18⟩,
      ⟨.number, "2", 20⟩] = .ok e :=
    exists_of_isOk (by decide +kernel)
  have h := grouping_on_either_side [⟨.operator, "/", 18⟩, ⟨.number, "2", 20⟩] hname hop
    (clause 4 7 8 11) hopening hrow hclosing
  have hleading := congrArg (fun x => x.toOption.map Expr.unplaced) he
  exact ⟨⟨e, he, hleading.symm.trans (h.1 callLimit 21 21 _ _ rfl rfl)⟩,
    h.2 callLimit 34 _ _ _ (clause 18 21 22 25) rfl⟩

end PanelExport.Query
