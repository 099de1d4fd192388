import PanelExport.Proofs.Query.Levels
import PanelExport.Proofs.Query.Rows

/-!
# The nodes of a printed tree

For every kind of node, the tokens of its words are read as the node, if the tokens of the parts are
read as the parts. The check that the parser makes accepts the node because it obeys the rules.

* `readsPrimary_selector`, `readsPrimary_call`, `readsPrimary_aggregate`: what starts with a name.
* `readsOperand_matrix`, `readsOperand_subquery`: a range behind a node.
* `readsExpression_binary`: an operator between two expressions.
-/

namespace PanelExport.Query

variable {stop : Nat} {ts : List Token}

/-! ## Selectors -/

/-- Conditions in braces are read as the selector without a name. -/
theorem readsPrimary_braces {s : Selector} (hw : s.WellFormed) (hname : s.name = "")
    {brace closing : Token} (hbrace : brace.kind = .leftBrace) (hclosing : closing.kind = .rightBrace)
    (hs : Stand ts (listed (s.matchers.map Matcher.words))) :
    ReadsPrimary stop (brace :: (ts ++ [closing])) (.selector { s with pos := brace.pos }) := by
  refine readsPrimary_leaf rfl fun nested rest _ => ?_
  have hread : reading (conditions stop brace.pos s.name (ts ++ closing :: rest)) =
      .ok ({ s with pos := brace.pos }, rest) :=
    reading_conditions_words hw hs hclosing brace.pos rest
  rw [List.cons_append, List.append_assoc, List.singleton_append, reading_primary, hbrace]
  simp only [← hname, hread, bind, Except.bind]
  rfl

/-- The name of a metric is read as the name of a selector. -/
theorem reading_primary_metricName {nested : Nat → Parser Expr} {t : Token} {rest : List Token}
    (ht : t.kind = .identifier) (hmetric : IsMetricName t.value)
    (hends : (current stop rest).EndsCallee) :
    reading (primary stop nested (t :: rest)) = (do
      let (s, rest) ← reading (selector stop t.pos t.value rest)
      return (.selector s, rest)) := by
  have hnumber : numberWord? t = none := by
    simp [numberWord?, hmetric.free.2]
  rw [reading_primary, ht]
  simp only [reading_named_of_ends hends, hnumber, hmetric.free.1, if_false]

/-- The words for a selector are read as the selector, at the place of the first token. -/
theorem readsPrimary_selector (stop : Nat) {s : Selector} (hw : s.WellFormed)
    (hn : s.name = "" ∨ IsMetricName s.name) (hs : Stand ts s.words) :
    ∃ pos, ReadsPrimary stop ts (.selector { s with pos }) := by
  by_cases hname : s.name = ""
  · rw [Selector.words, if_pos hname, if_neg (hw.matchers_ne_nil hname), List.nil_append] at hs
    obtain ⟨brace, ms, closing, rfl, hbrace, hms, hclosing⟩ := stand_enclosed.1 hs
    exact ⟨brace.pos, readsPrimary_braces hw hname hbrace.1 hclosing.1 hms⟩
  · rw [Selector.words, if_neg hname, List.singleton_append] at hs
    obtain ⟨t, us, rfl, ⟨hkind, hvalue⟩, hus⟩ := stand_cons.1 hs
    have hkind : t.kind = .identifier := hkind
    have hvalue : t.value = s.name := hvalue
    have hmetric : IsMetricName t.value := hvalue ▸ hn.resolve_left hname
    refine ⟨t.pos, readsPrimary_leaf rfl fun nested rest hr => ?_⟩
    split at hus
    · rename_i hmatchers
      obtain rfl := stand_nil.1 hus
      have hbrace : take? (·.kind == .leftBrace) rest = none :=
        take?_eq_none_iff.2 fun t ht => by simpa using (hr t ht).1
      have hcheck : checkSelector ⟨t.pos, s.name, []⟩ = .ok { s with pos := t.pos } := by
        rw [checkSelector_eq_ok, ← hmatchers]
        exact ⟨rfl, hw⟩
      rw [List.singleton_append, reading_primary_metricName hkind hmetric hr.current,
        reading_selector, hbrace, hvalue]
      simp [hcheck, bind, Except.bind, pure, Except.pure]
    · obtain ⟨brace, ms, closing, rfl, hbrace, hms, hclosing⟩ := stand_enclosed.1 hus
      have hbrace : brace.kind = .leftBrace := hbrace.1
      have htokens : t :: brace :: (ms ++ [closing]) ++ rest =
          t :: brace :: (ms ++ closing :: rest) := by
        simp
      have hends : (current stop (brace :: (ms ++ closing :: rest))).EndsCallee :=
        ⟨by simp [current, hbrace], brace.isWord_of_kind (by simp [hbrace]) _⟩
      have hread : reading (conditions stop t.pos s.name (ms ++ closing :: rest)) =
          .ok ({ s with pos := t.pos }, rest) :=
        reading_conditions_words hw hms hclosing.1 t.pos rest
      rw [htokens, reading_primary_metricName hkind hmetric hends, reading_selector,
        take?_cons_of_true (by simp [hbrace]), hvalue]
      simp only [hread, bind, Except.bind]
      rfl

/-! ## Arguments -/

theorem map_unplaced_eq {es fs : List Expr} (h : List.Forall₂ Expr.Like es fs) :
    es.map Expr.unplaced = fs.map Expr.unplaced := by
  induction h with
  | nil => rfl
  | cons h _ ih => rw [List.map_cons, List.map_cons, ih, h]

theorem map_type_eq {es fs : List Expr} (h : List.Forall₂ Expr.Like es fs) :
    es.map Expr.type = fs.map Expr.type := by
  induction h with
  | nil => rfl
  | cons h _ ih => rw [List.map_cons, List.map_cons, ih, h.type_eq]

/-- Trees like the arguments of an aggregation are the arguments of one like it. -/
theorem aggregateArguments_like {args : List Expr} {parameter? : Option Expr} {e : Expr}
    (h : List.Forall₂ Expr.Like args (parameter?.toList ++ [e])) :
    ∃ (parameter'? : Option Expr) (e' : Expr), args = parameter'?.toList ++ [e'] ∧ e'.Like e ∧
      parameter'?.map Expr.unplaced = parameter?.map Expr.unplaced ∧
      parameter'?.map Expr.type = parameter?.map Expr.type := by
  cases parameter? with
  | none =>
    obtain ⟨e', _, he, hnil, rfl⟩ := List.forall₂_cons_right_iff.1 h
    obtain rfl := List.forall₂_nil_right_iff.1 hnil
    exact ⟨none, e', rfl, he, rfl, rfl⟩
  | some p =>
    obtain ⟨p', _, hp, hrest, rfl⟩ := List.forall₂_cons_right_iff.1 h
    obtain ⟨e', _, he, hnil, rfl⟩ := List.forall₂_cons_right_iff.1 hrest
    obtain rfl := List.forall₂_nil_right_iff.1 hnil
    exact ⟨some p', e', rfl, he, congrArg some hp, congrArg some hp.type_eq⟩

/-- The tokens of arguments are read as the trees, up to and with the closing parenthesis. -/
def ReadsArguments (stop : Nat) (ts : List Token) (args : List Expr) : Prop :=
  ∀ calls place t rest, t.kind = .rightParen →
    reading (separated stop .rightParen place (expression stop (calls - 3) 0) (ts ++ t :: rest)) =
      if Expr.callsOfAll args ≤ calls + 2 then .ok (args, rest) else fail .tooDeep 0

/-- An argument is there if it fits into the limit. -/
def fitting (calls : Nat) (e : Expr) : Except Fault Expr :=
  if e.calls + 5 ≤ calls + 2 then .ok e else fail .tooDeep 0

theorem mapM_fitting (calls : Nat) (args : List Expr) :
    args.mapM (fitting calls) =
      if Expr.callsOfAll args ≤ calls + 2 then .ok args else fail .tooDeep 0 := by
  induction args with
  | nil => rw [Expr.callsOfAll, if_pos (Nat.le_add_left 2 calls)]; rfl
  | cons a args ih =>
    rw [List.mapM_cons, ih, fitting, Expr.callsOfAll]
    by_cases ha : a.calls + 5 ≤ calls + 2
    · by_cases hargs : Expr.callsOfAll args ≤ calls + 2
      · rw [if_pos ha, if_pos hargs, if_pos (Nat.max_le.2 ⟨ha, hargs⟩)]
        rfl
      · rw [if_pos ha, if_neg hargs, if_neg fun h => hargs (Nat.max_le.1 h).2]
        rfl
    · rw [if_neg ha, if_neg fun h => ha (Nat.max_le.1 h).1]
      rfl

/-- If the tokens of every argument are read as an expression, those of all are read as arguments. -/
theorem readsArguments (stop : Nat) {args : List Expr}
    (h : ∀ a ∈ args, ∀ ts, Stand ts a.words → ∃ a' : Expr, a'.Like a ∧ ReadsExpression stop ts a')
    (hp : ∀ a ∈ args, a.Printable) (hs : Stand ts (listed (args.map Expr.words))) :
    ∃ args', List.Forall₂ Expr.Like args' args ∧ ReadsArguments stop ts args' := by
  have hitem : ∀ a ∈ args, ∀ ts, Stand ts a.words → ∃ a' : Expr, a'.Like a ∧ ∀ calls,
      ReadsItem (expression stop (calls - 3) 0) .rightParen ts (fitting calls a') := by
    intro a ha ts hts
    obtain ⟨a', hlike, hread⟩ := h a ha ts hts
    obtain ⟨w, ws, hws, hstarts⟩ := Expr.words_start (hp a ha)
    obtain ⟨t, us, rfl, ht, -⟩ := stand_cons.1 (hws ▸ hts)
    have htwo := a'.two_le_calls
    have hfits (calls : Nat) : a'.calls ≤ calls - 3 ↔ a'.calls + 5 ≤ calls + 2 := by omega
    refine ⟨a', hlike, fun calls => ⟨⟨t, us, rfl, ht.1 ▸ hstarts.1⟩, fun rest hrest => ?_⟩⟩
    simp only [hread.closed hrest, fitting, hfits]
    split <;> rfl
  obtain ⟨args', hlike, hlisted⟩ := listed_of_stand hitem hs
  refine ⟨args', hlike, fun calls place t rest ht => ?_⟩
  rw [reading_listed (by decide) (hlisted.imp fun _ _ h => h calls) ht, mapM_fitting]
  split <;> rfl

/-! ## Nodes -/

variable {us : List Token} {name opening closing : Token}

/-- A call is read from its name and its arguments. -/
theorem readsPrimary_call {function : String} {s : Signature} (hs : signature? function = some s)
    {args : List Expr} (haccepts : s.Accepts (args.map Expr.type)) (hname : name.Is (.name function))
    (hopening : opening.kind = .leftParen) (hargs : ReadsArguments stop us args)
    (hclosing : closing.kind = .rightParen) :
    ReadsPrimary stop (name :: opening :: (us ++ [closing]))
      (.call name.pos function args s.returns) := by
  intro calls rest _
  obtain ⟨hm, rfl⟩ := mem_signatures hs
  have hall : ∀ s ∈ signatures, AggregateOp.ofName? s.name = none := by decide +kernel
  have htokens : name :: opening :: (us ++ [closing]) ++ rest =
      name :: opening :: (us ++ closing :: rest) := by
    simp
  have hvalue : name.value = s.name := hname.2
  have hstart : aggregateStart? name opening = none := by
    simp [aggregateStart?, hvalue, toLower_of_mem (mem_startWords_function hm),
      hall s hm]
  have hcheck : checkCall name.pos s args = .ok (.call name.pos s.name args s.returns) :=
    (checkCall_eq_ok hm).2 ⟨rfl, haccepts⟩
  have hcalls : (Expr.call name.pos s.name args s.returns).calls = Expr.callsOfAll args := by
    rw [Expr.calls]
  rw [htokens, reading_primary, show name.kind = .identifier from hname.1]
  simp only [reading_named, current, hstart, hopening, if_true, reading_call, hvalue, hs,
    reading_expect_cons stop hopening, bind, Except.bind, hargs calls _ _ rest hclosing, hcalls]
  by_cases hfits : Expr.callsOfAll args ≤ calls + 2
  · simp only [if_pos hfits, hcheck]
    rfl
  · simp only [if_neg hfits]
    rfl

/-- An aggregation is read from its name, its grouping clause and its arguments. -/
theorem readsPrimary_aggregate {op : AggregateOp} {g : Grouping} {e : Expr}
    {parameter? : Option Expr} {gs : List Token} (htype : e.type = .instant)
    (hparameter : parameter?.map Expr.type = op.parameter?) (hname : name.Is (.name op.name))
    (hg : Stand gs g.words) (hopening : opening.kind = .leftParen)
    (hargs : ReadsArguments stop us (parameter?.toList ++ [e]))
    (hclosing : closing.kind = .rightParen) :
    ReadsPrimary stop (name :: (gs ++ opening :: (us ++ [closing])))
      (.aggregate name.pos op e parameter? g) := by
  intro calls rest hr
  have htokens : name :: (gs ++ opening :: (us ++ [closing])) ++ rest =
      name :: (gs ++ opening :: (us ++ closing :: rest)) := by
    simp
  have hstart : aggregateStart? name (current stop (gs ++ opening :: (us ++ closing :: rest))) =
      some op := by
    obtain ⟨word, gs', rfl, hword, -⟩ := stand_cons.1 hg
    have hname : name.value.toLower = op.name := by
      rw [hname.2]
      exact toLower_of_mem (mem_startWords_aggregation op)
    rw [aggregateStart?, List.cons_append, current, if_pos (.inr hword.isWord_grouping.1), hname]
    cases op <;> rfl
  have htrailing : reading (grouping stop rest) = .ok (none, rest) := by
    rw [reading_grouping, take?_eq_none_iff.2 fun t ht => (hr t ht).2.2]
  have hcheck : checkAggregate name.pos op g (parameter?.toList ++ [e]) =
      .ok (.aggregate name.pos op e parameter? g) :=
    checkAggregate_eq_ok.2 ⟨e, parameter?, rfl, rfl, htype, hparameter⟩
  have hcalls : (Expr.aggregate name.pos op e parameter? g).calls =
      Expr.callsOfAll (parameter?.toList ++ [e]) := by
    cases parameter? <;> simp only [Expr.calls, Expr.callsOfParameter, Expr.callsOfAll,
      Option.toList, List.nil_append, List.cons_append] <;> omega
  rw [htokens, reading_primary, show name.kind = .identifier from hname.1]
  simp only [reading_named, hstart, reading_aggregation, reading_grouping_words hg, bind,
    Except.bind, reading_expect_cons stop hopening, hargs calls _ _ rest hclosing, hcalls]
  by_cases hfits : Expr.callsOfAll (parameter?.toList ++ [e]) ≤ calls + 2
  · simp only [if_pos hfits, htrailing, Option.isSome_none, Bool.and_false, Bool.false_eq_true,
      if_false, Option.or_none, Option.getD_some, hcheck]
    rfl
  · simp only [if_neg hfits]
    rfl

/-- Parentheses are read from what stands between them. -/
theorem readsPrimary_paren {e : Expr} (h : ReadsExpression stop us e)
    (hopening : opening.kind = .leftParen) (hclosing : closing.kind = .rightParen) :
    ReadsPrimary stop (opening :: (us ++ [closing])) (.paren opening.pos e) := by
  intro calls rest _
  have htokens : opening :: (us ++ [closing]) ++ rest = opening :: (us ++ closing :: rest) := by
    simp
  have hclosed : Closed (closing :: rest) := by simp [Closed, hclosing]
  have htwo := e.two_le_calls
  have hfits : e.calls ≤ calls - 1 ↔ (Expr.paren opening.pos e).calls ≤ calls + 2 := by
    rw [Expr.calls]
    omega
  rw [htokens, reading_primary, hopening]
  simp only [h.closed hclosed, hfits]
  split
  · simp [bind, Except.bind, reading_expect_cons stop hclosing, pure, Except.pure]
  · rfl

variable {bracket amount t : Token}

theorem endsPrimary_bracket (h : bracket.kind = .leftBracket) (rest : List Token) :
    EndsPrimary (bracket :: rest) := by
  rintro u ⟨⟩
  exact ⟨by simp [h], by simp [h], bracket.isWord_of_kind (by simp [h]) _⟩

/-- A range behind a selector. -/
theorem readsOperand_matrix {s : Selector} {range : String} (h : ReadsPrimary stop ts (.selector s))
    (hbracket : bracket.kind = .leftBracket) (hamount : amount.Is (.plain .duration range))
    (hclosing : closing.kind = .rightBracket) :
    ReadsOperand stop (ts ++ [bracket, amount, closing]) (.matrix s.pos s range) := by
  refine h.suffixed (Nat.max_zero 2).symm fun calls rest hr =>
    ⟨endsPrimary_bracket hbracket _, ?_⟩
  have hcolon : take? (·.kind == .colon) (closing :: rest) = none :=
    take?_cons_of_false (by simp [hclosing]) rest
  have hduration : amount.kind = .duration := hamount.1
  have htokens : [bracket, amount, closing] ++ rest = bracket :: amount :: closing :: rest := rfl
  rw [htokens, if_pos (Nat.zero_le _), suffixes_iff]
  refine .range hbracket rfl ?_ (.done fun t ht => (hr t ht).2)
  rw [reading_range, reading_expect_cons stop hduration]
  simp only [bind, Except.bind, hcolon, reading_expect_cons stop hclosing, hamount.2]
  rfl

/-- The step of a subquery, which may be missing. -/
theorem subqueryStep_words {step? : Option String} {us : List Token}
    (h : Stand us (step?.toList.map (.plain .duration))) (hclosing : closing.kind = .rightBracket)
    (rest : List Token) : (subqueryStep (us ++ closing :: rest)).value = step? ∧
      (subqueryStep (us ++ closing :: rest)).rest = closing :: rest := by
  cases step? with
  | none =>
    obtain rfl := stand_nil.1 h
    simp [subqueryStep, take?, hclosing, Parsed.stay]
  | some step =>
    obtain ⟨t, rfl, ht⟩ := stand_single.1 h
    simp [subqueryStep, take?, ht.1, ht.2, Word.plain, Parsed.widen, Parsed.map]

/-- A subquery behind a tree. -/
theorem readsOperand_subquery {e : Expr} {range : String} {step? : Option String} {colon : Token}
    (h : ReadsPrimary stop ts e) (htype : e.type = .instant) (hbracket : bracket.kind = .leftBracket)
    (hamount : amount.Is (.plain .duration range)) (hcolon : colon.kind = .colon)
    (hstep : Stand us (step?.toList.map (.plain .duration)))
    (hclosing : closing.kind = .rightBracket) :
    ReadsOperand stop (ts ++ bracket :: amount :: colon :: (us ++ [closing]))
      (.subquery e.pos e range step?) := by
  refine h.suffixed rfl fun calls rest hr => ⟨endsPrimary_bracket hbracket _, ?_⟩
  obtain ⟨hvalue, hrest⟩ := subqueryStep_words hstep hclosing rest
  have htake := take?_cons_of_true (p := (·.kind == .colon)) (t := colon) (by simp [hcolon])
    (us ++ closing :: rest)
  have htokens : bracket :: amount :: colon :: (us ++ [closing]) ++ rest =
      bracket :: amount :: colon :: (us ++ closing :: rest) := by
    simp
  have hallowed : checkRange .none e bracket.pos
      (bracket :: amount :: colon :: (us ++ closing :: rest)) = .ok () := by
    cases e <;> rfl
  have hduration : amount.kind = .duration := hamount.1
  have hclose : reading (expect stop .rightBracket .subquery
      (subqueryStep (us ++ closing :: rest)).rest) = .ok (closing, rest) :=
    reading_expect_eq_ok.2 ⟨hclosing, hrest⟩
  have hpos := e.typeCalls_pos
  have hfits : e.typeCalls ≤ calls - 1 - 1 ↔ e.typeCalls + 4 ≤ calls + 2 := by omega
  have hread : reading (PanelExport.Query.range stop (calls - 1 - 1) bracket.pos e
      (amount :: colon :: (us ++ closing :: rest))) =
        if e.typeCalls + 4 ≤ calls + 2 then .ok (.subquery e.pos e range step?, rest)
        else fail .tooDeep 0 := by
    rw [reading_range, reading_expect_cons stop hduration]
    simp only [bind, Except.bind, htake, hvalue, hclose, Expr.typeWithin_eq, hfits, hamount.2]
    by_cases hroom : e.typeCalls + 4 ≤ calls + 2
    · simp only [if_pos hroom, if_pos htype]
      rfl
    · simp only [if_neg hroom]
      rfl
  rw [htokens, reading_suffixes, take?_cons_of_true (by simp [hbracket])]
  simp only [hallowed, bind, Except.bind, hread]
  by_cases hroom : e.typeCalls + 4 ≤ calls + 2
  · simp only [if_pos hroom]
    exact suffixes_iff.2 (.done fun t ht => (hr t ht).2)
  · simp only [if_neg hroom]
    rfl

/-- An operand with a sign, which is no number. -/
theorem readsOperand_unary {e : Expr} {sign : Sign} (h : ReadsOperand stop ts e)
    (htype : e.type.isOperand = true) (hn : ¬ e.IsNumber) (ht : t.Is sign.word) :
    ReadsOperand stop (t :: ts) (.unary t.pos sign e) :=
  h.signed (sign?_word ht) (applySign_eq_ok.2 ⟨htype, .inr ⟨hn, rfl⟩⟩) rfl

/-! ## Operators -/

theorem binaryOp?_word {op : BinaryOp} (ht : t.Is op.word) : binaryOp? t = some op := by
  obtain ⟨hkind, hvalue⟩ := ht
  rw [binaryOp?, hkind, hvalue]
  cases op <;> decide +kernel

theorem endsOperand_operator {op : BinaryOp} (ht : t.Is op.word) (rest : List Token) :
    EndsOperand (t :: rest) := by
  rintro u ⟨⟩
  obtain ⟨hkind, hvalue⟩ := ht
  simp only [Token.EndsName, Token.EndsCallee, Token.isSuffix, Token.isWord, hkind, hvalue]
  cases op <;> decide +kernel

/-- Neither the word for a truth value nor one for the matching of series. -/
def Token.StartsOperand (t : Token) : Prop :=
  t.isWord ["bool"] = false ∧ t.isWord ["on", "ignoring"] = false

theorem Token.Is.startsOperand {w : Word} (h : t.Is w) (hw : w.Starts) : t.StartsOperand := by
  have hwords : t.kind = .identifier → t.value.toLower ∉ ["bool", "on", "ignoring"] := by
    rw [h.1, h.2]
    exact hw.2
  have hsubset {words : List String} (hs : words ⊆ ["bool", "on", "ignoring"]) :
      t.isWord words = false := by
    rw [← Bool.not_eq_true, isWord_iff]
    exact fun ⟨hkind, hm⟩ => hwords hkind (hs hm)
  exact ⟨hsubset (by decide), hsubset (by decide)⟩

theorem reading_boolModifier_words {op : BinaryOp} {returnBool : Bool} {rest : List Token}
    (h : Stand us (if returnBool then [.name "bool"] else []))
    (hcomparison : returnBool = true → op.isComparison = true)
    (hrest : ∀ t ∈ rest.head?, t.isWord ["bool"] = false) :
    reading (boolModifier op (us ++ rest)) = .ok (returnBool, rest) := by
  cases returnBool with
  | false =>
    obtain rfl := stand_nil.1 h
    have htake : take? (·.isWord ["bool"]) ([] ++ rest) = none := take?_eq_none_iff.2 hrest
    rw [boolModifier, htake]
    rfl
  | true =>
    obtain ⟨t, rfl, ht⟩ := stand_single.1 h
    have htake := take?_cons_of_true (p := (·.isWord ["bool"])) (t := t)
      (by rw [ht.isWord_eq]; decide +kernel) rest
    rw [boolModifier, List.singleton_append, htake]
    simp only [hcomparison rfl, if_true]
    rfl

theorem reading_vectorMatching_none {op : BinaryOp} {rest : List Token}
    (hrest : ∀ t ∈ rest.head?, t.isWord ["on", "ignoring"] = false) :
    reading (vectorMatching stop op rest) = .ok ((), rest) := by
  rw [vectorMatching, take?_eq_none_iff.2 hrest]
  rfl

/-- Two expressions with an operator between them that allows them there. -/
theorem readsExpression_binary {lhs rhs : Expr} {op : BinaryOp} {returnBool : Bool}
    {vs : List Token} (hl : ReadsExpression stop ts lhs) (hr : ReadsExpression stop us rhs)
    (hstart : ∃ u us', us = u :: us' ∧ u.StartsOperand) (ht : t.Is op.word)
    (hbool : Stand vs (if returnBool then [.name "bool"] else []))
    (hw : (Expr.binary t.pos op lhs rhs returnBool).WellTyped)
    (hg : (Expr.binary t.pos op lhs rhs returnBool).Grouped) :
    ReadsExpression stop (ts ++ t :: (vs ++ us)) (.binary t.pos op lhs rhs returnBool) := by
  intro calls level rest hrest hnext hlevel
  obtain ⟨haccepts, hcomparison⟩ := hw
  obtain ⟨hleft, hright⟩ := hg
  obtain ⟨u, us', rfl, hbefore, hmatching⟩ := hstart
  have hop := binaryOp?_word ht
  have hlevel : level ≤ op.precedence := hlevel op rfl
  have htokens : ts ++ t :: (vs ++ u :: us') ++ rest = ts ++ t :: (vs ++ (u :: us' ++ rest)) := by
    simp
  -- The climb behind the left operand finds the operator, since nothing below takes it first.
  have hlhs := hl calls level (t :: (vs ++ (u :: us' ++ rest))) (endsOperand_operator ht _)
    (fun inner hi o ho => by
      obtain rfl : op = o := by simpa [nextOp?, hop] using ho
      exact BinaryOp.allowsLeft_iff.1 (hleft inner hi))
    (fun inner hi => Nat.le_trans hlevel (hleft inner hi).1)
  -- What follows binds less tightly than the operator, so the right operand is read to its end.
  have hrhs := hr.complete hrest (hnext op rfl)
    (fun inner hi => BinaryOp.allowsRight_iff.1 (hright inner hi)) (calls - 1)
  have hlhspos := lhs.typeCalls_pos
  have hcheck : lhs.typeCalls ≤ calls - 1 - 1 → rhs.typeCalls ≤ calls - 1 - 1 →
      checkBinary (calls - 1 - 1) t.pos op lhs rhs returnBool =
        .ok (.binary t.pos op lhs rhs returnBool) := fun hl hr =>
    checkBinary_eq_ok.2 ⟨rfl, haccepts, hl, hr⟩
  have hmodifier : reading (boolModifier op (vs ++ (u :: us' ++ rest))) =
      .ok (returnBool, u :: us' ++ rest) :=
    reading_boolModifier_words hbool hcomparison (by simpa using hbefore)
  have hseries : reading (vectorMatching stop op (u :: us' ++ rest)) = .ok ((), u :: us' ++ rest) :=
    reading_vectorMatching_none (by simpa using hmatching)
  have htwo := rhs.two_le_calls
  rw [htokens, hlhs, reading_climb, hop]
  simp only [Nat.not_lt.2 hlevel, if_false, bind, Except.bind, hmodifier, hseries, hrhs]
  by_cases hlfits : lhs.calls ≤ calls
  · by_cases hrfits : rhs.calls ≤ calls - 1
    · simp only [if_pos hlfits, if_pos hrfits]
      by_cases htypes : max lhs.typeCalls rhs.typeCalls ≤ calls - 1 - 1
      · have hfits : (Expr.binary t.pos op lhs rhs returnBool).calls ≤ calls := by
          simp only [Expr.calls]
          omega
        simp only [if_pos hfits, hcheck (Nat.max_le.1 htypes).1 (Nat.max_le.1 htypes).2]
      · have hfits : ¬ (Expr.binary t.pos op lhs rhs returnBool).calls ≤ calls := by
          simp only [Expr.calls]
          omega
        rw [if_neg hfits, checkBinary_eq_tooDeep haccepts.1 htypes]
        rfl
    · have hfits : ¬ (Expr.binary t.pos op lhs rhs returnBool).calls ≤ calls := by
        simp only [Expr.calls]
        omega
      simp only [if_pos hlfits, if_neg hrfits, if_neg hfits]
      rfl
  · have hfits : ¬ (Expr.binary t.pos op lhs rhs returnBool).calls ≤ calls := by
      simp only [Expr.calls]
      omega
    rw [if_neg hlfits, if_neg hfits]

end PanelExport.Query
