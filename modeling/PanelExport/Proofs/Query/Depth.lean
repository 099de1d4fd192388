import PanelExport.Proofs.Query.Progress

/-!
# How many calls the tokens need

What nests in an operand or in an expression is only asked for behind a token that was taken: behind
a sign, in parentheses, as an argument, or behind an operator. So the parsers come to the same
result whatever those for what nests make of other tokens. On the way from an expression to one that
nests in it no more than five calls are opened, and the type of a tree takes no more calls than the
tree has tokens. So five calls for each token are enough, and a limit on the open calls shows only
in a row that has a fifth as many tokens.

* `SameUnless`, `SameOn`, `SameBehind`: results and parsers that are the same unless the limit is
  reached.
* `operandWith_same`, `expressionWith_same`: above parsers that are the same behind the first token.
* `levels_same`: within a greater limit the result is the same, or the limit was reached.
* `levels_shallow`: a limit is not reached if there are few tokens.
* `parse_progress`: the parsers go forward, their loops and descents take tokens, and they end.
-/

namespace PanelExport.Query

variable {α β : Type} {deep : Prop} {stop calls calls' : Nat} {ts rest : List Token}

/-! ## The same result -/

/-- Two results are the same, or the limit on the calls was reached in the first, where that may
happen. -/
def SameUnless (deep : Prop) (x y : Except Fault α) : Prop :=
  x = y ∨ deep ∧ x = fail .tooDeep 0

theorem SameUnless.refl (x : Except Fault α) : SameUnless deep x x := .inl rfl

/-- What goes on with the same values comes to the same results, and a limit that was reached stays
the reason. -/
theorem SameUnless.bind {x y : Except Fault α} {f g : α → Except Fault β}
    (h : SameUnless deep x y) (hf : ∀ a, x = .ok a → SameUnless deep (f a) (g a)) :
    SameUnless deep (x >>= f) (y >>= g) := by
  rcases h with rfl | ⟨hdeep, rfl⟩
  · cases x with
    | error fault => exact .refl _
    | ok a => exact hf a rfl
  · exact .inr ⟨hdeep, rfl⟩

/-- Two parsers leave tails and have the same results from every tail of some tokens on. -/
structure SameOn (deep : Prop) (ts : List Token) (p q : Parser α) : Prop where
  same : ∀ rest, rest <:+ ts → SameUnless deep (p rest) (q rest)
  tails : ∀ rest, rest <:+ ts → ∀ r, p rest = .ok r → r.rest <:+ rest

/-- A parser that goes forward leaves tails. -/
theorem sameOn_of_forward {p q : Parser α}
    (h : ∀ rest, rest <:+ ts → SameUnless deep (p rest) (q rest))
    (hp : Forward stop fun ts => reading (p ts)) : SameOn deep ts p q where
  same := h
  tails _ _ _ := hp.rest_suffix

theorem SameOn.suffix {p q : Parser α} (h : SameOn deep ts p q) (hs : rest <:+ ts) :
    SameOn deep rest p q where
  same _ hr := h.same _ (hr.trans hs)
  tails _ hr := h.tails _ (hr.trans hs)

/-- Two parsers are the same behind the first of some tokens, if there is one. -/
def SameBehind (deep : Prop) (ts : List Token) (p q : Parser α) : Prop :=
  ∀ t tail, ts = t :: tail → SameOn deep tail p q

/-- Further on less is behind the first token. -/
theorem SameBehind.suffix {p q : Parser α} (h : SameBehind deep ts p q) (hs : rest <:+ ts) :
    SameBehind deep rest p q := by
  rintro t tail rfl
  cases ts with
  | nil => exact absurd (List.suffix_nil.1 hs) (List.cons_ne_nil t tail)
  | cons u us => exact (h u us rfl).suffix (tail_suffix_tail hs)

theorem SameOn.behind {p q : Parser α} {t : Token} (h : SameOn deep ts p q) :
    SameBehind deep (t :: ts) p q := by
  rintro _ _ ⟨⟩
  exact h

/-! ## The same limit -/

/-- One limit is another, or it is smaller where it may be reached. -/
def Below (deep : Prop) (calls calls' : Nat) : Prop :=
  calls = calls' ∨ deep ∧ calls ≤ calls'

theorem Below.sub (h : Below deep calls calls') (n : Nat) :
    Below deep (calls - n) (calls' - n) :=
  h.imp (congrArg (· - n)) (And.imp_right (Nat.sub_le_sub_right · n))

theorem typeWithin_same (h : Below deep calls calls') (e : Expr) :
    SameUnless deep (e.typeWithin calls) (e.typeWithin calls') := by
  rcases h with rfl | ⟨hdeep, hle⟩
  · exact .refl _
  · rw [Expr.typeWithin_eq, Expr.typeWithin_eq]
    by_cases hfits : e.typeCalls ≤ calls
    · rw [if_pos hfits, if_pos (Nat.le_trans hfits hle)]
      exact .refl _
    · rw [if_neg hfits]
      exact .inr ⟨hdeep, rfl⟩

theorem operandType_same (h : Below deep calls calls') (pos : Nat) (e : Expr) :
    SameUnless deep (operandType calls pos e) (operandType calls' pos e) :=
  (typeWithin_same h e).bind fun _ _ => .refl _

/-- A check of an operator's types is the same, or a limit on their calls was reached. -/
theorem checkBinary_same (h : Below deep calls calls') (pos : Nat) (op : BinaryOp) (lhs rhs : Expr)
    (returnBool : Bool) : SameUnless deep (checkBinary calls pos op lhs rhs returnBool)
      (checkBinary calls' pos op lhs rhs returnBool) :=
  (operandType_same h pos lhs).bind fun _ _ => (operandType_same h pos rhs).bind fun _ _ => .refl _

theorem range_same (h : Below deep calls calls') (start : Nat) (node : Expr) (ts : List Token) :
    SameUnless deep (range stop calls start node ts) (range stop calls' start node ts) := by
  unfold range
  refine (SameUnless.refl _).bind fun range _ => ?_
  cases take? (·.kind == .colon) range.rest with
  | some colon =>
    refine (SameUnless.refl _).bind fun closing _ => ?_
    exact (typeWithin_same h node).bind fun _ _ => .refl _
  | none => exact .refl _

theorem suffixes_same (h : Below deep calls calls') (node : Expr) (ms : Modifiers)
    (ts : List Token) :
    SameUnless deep (suffixes stop calls node ms ts) (suffixes stop calls' node ms ts) := by
  rw [suffixes, suffixes]
  cases take? (·.kind == .leftBracket) ts with
  | some bracket =>
    refine (SameUnless.refl _).bind fun _ _ => ?_
    refine (range_same (h.sub 1) _ node bracket.rest).bind fun inner _ => ?_
    have shorter : inner.rest.length < ts.length := Nat.lt_trans inner.shorter bracket.shorter
    exact (suffixes_same h inner.value .none inner.rest).bind fun _ _ => .refl _
  | none =>
    simp only
    cases take? (·.isWord ["offset"]) ts with
    | some word =>
      refine (SameUnless.refl _).bind fun ms _ => (SameUnless.refl _).bind fun amount _ => ?_
      have shorter : amount.rest.length < ts.length := Nat.lt_trans amount.shorter word.shorter
      exact (suffixes_same h node ms amount.rest).bind fun _ _ => .refl _
    | none =>
      simp only
      cases take? (·.kind == .atSign) ts with
      | some sign =>
        refine (SameUnless.refl _).bind fun ms _ => (SameUnless.refl _).bind fun time _ => ?_
        have shorter : time.rest.length < ts.length := Nat.lt_trans time.shorter sign.shorter
        exact (suffixes_same h node ms time.rest).bind fun _ _ => .refl _
      | none => exact .refl _
termination_by ts.length
decreasing_by all_goals exact shorter

/-! ## Parsers above parsers that are the same -/

/-- The items of a row are asked for from tails of its tokens. -/
theorem separated_same {close : Kind} {place : Place} {item item' : Parser α} (ts : List Token)
    (h : SameOn deep ts item item') :
    SameUnless deep (separated stop close place item ts) (separated stop close place item' ts) := by
  rw [separated, separated]
  cases take? (·.kind == close) ts with
  | some t => exact .refl _
  | none =>
    refine (h.same ts List.suffix_rfl).bind fun first hfirst => ?_
    cases hcomma : take? (·.kind == .comma) first.rest with
    | some comma =>
      have hrest := (take?_suffix hcomma).trans (h.tails ts List.suffix_rfl first hfirst)
      have shorter : comma.rest.length < ts.length := Nat.lt_trans comma.shorter first.shorter
      exact (separated_same comma.rest (h.suffix hrest)).bind fun _ _ => .refl _
    | none => exact .refl _
termination_by ts.length
decreasing_by exact shorter

/-- The right operands stand behind the first token. -/
theorem climb_same {expression expression' : Nat → Parser Expr} {level : Nat}
    (hcalls : Below deep calls calls') :
    (lhs : Expr) → (ts : List Token) →
      (∀ level, SameBehind deep ts (expression level) (expression' level)) →
      SameUnless deep (climb stop calls expression level lhs ts)
        (climb stop calls' expression' level lhs ts)
  | lhs, [], _ => by
    rw [climb, climb]
    exact .refl _
  | lhs, t :: ts, h => by
    have hg := grammar_forward stop 0
    have h := fun level => h level t ts rfl
    rw [climb, climb]
    cases binaryOp? t with
    | none => exact .refl _
    | some op =>
      simp only
      split
      · exact .refl _
      · refine (SameUnless.refl _).bind fun returnBool hbool => ?_
        refine (SameUnless.refl _).bind fun matching hmatching => ?_
        have hm : matching.rest <:+ ts :=
          ((hg.vectorMatching op).rest_suffix hmatching).trans
            ((hg.boolModifier op).rest_suffix hbool)
        refine ((h _).same _ hm).bind fun rhs hrhs => ?_
        refine (checkBinary_same (hcalls.sub 1) _ _ _ _ _).bind fun node _ => ?_
        have hr : rhs.rest <:+ ts := ((h _).tails _ hm rhs hrhs).trans hm
        have fewer : rhs.rest.length < (t :: ts).length := Nat.lt_succ_of_le hr.length_le
        have hbehind := fun level => ((h level).behind (t := t)).suffix
          (hr.trans (List.suffix_cons t ts))
        exact (climb_same hcalls node rhs.rest hbehind).bind fun _ _ => .refl _
termination_by _ ts => ts.length
decreasing_by exact fewer

section Argument

variable {argument argument' : Parser Expr}

/-- The arguments of a call are asked for behind its opening parenthesis. -/
theorem call_same {function : Token} (h : SameOn deep ts argument argument') :
    SameUnless deep (call stop argument function ts) (call stop argument' function ts) := by
  unfold call
  cases signature? function.value with
  | none => exact .refl _
  | some s =>
    refine (SameUnless.refl _).bind fun opening hopening => ?_
    have hs := (keeps_expect (grants_any stop ts) _ _).suffix opening hopening
    exact (separated_same _ (h.suffix hs)).bind fun _ _ => .refl _

/-- The arguments of an aggregation are asked for behind its opening parenthesis. -/
theorem aggregation_same {pos : Nat} {op : AggregateOp} (h : SameOn deep ts argument argument') :
    SameUnless deep (aggregation stop argument pos op ts)
      (aggregation stop argument' pos op ts) := by
  unfold aggregation
  refine (SameUnless.refl _).bind fun leading hleading => ?_
  refine (SameUnless.refl _).bind fun opening hopening => ?_
  have hs := ((keeps_expect (grants_any stop _) _ _).suffix opening hopening).trans
    ((keeps_grouping (grants_any stop ts)).suffix leading hleading)
  exact (separated_same _ (h.suffix hs)).bind fun _ _ => .refl _

/-- A name asks for what nests in it only as a call or an aggregation. -/
theorem named_same {name : Token} (h : SameOn deep ts argument argument') :
    SameUnless deep (named stop argument name ts) (named stop argument' name ts) := by
  unfold named
  simp only
  cases aggregateStart? name (current stop ts) with
  | some op => exact (aggregation_same h).bind fun _ _ => .refl _
  | none =>
    simp only
    split
    · exact (call_same h).bind fun _ _ => .refl _
    · exact .refl _

end Argument

section Level

variable {operand operand' : Parser Expr} {expression expression' nested nested' : Nat → Parser Expr}

/-- What stands in parentheses or is an argument stands behind the first token. -/
theorem primary_same (h : ∀ between, SameBehind deep ts (nested between) (nested' between)) :
    SameUnless deep (primary stop nested ts) (primary stop nested' ts) := by
  cases ts with
  | nil => exact .refl _
  | cons t ts =>
    have h := fun between => h between t ts rfl
    unfold primary
    simp only
    cases t.kind with
    | leftParen => exact ((h 1).same ts List.suffix_rfl).bind fun _ _ => .refl _
    | identifier => exact named_same (h 3)
    | _ => exact .refl _

/-- What a sign stands in front of is behind the first token as well. -/
theorem operandWith_same (hcalls : Below deep calls calls')
    (ho : SameBehind deep ts operand operand')
    (hn : ∀ between, SameBehind deep ts (nested between) (nested' between)) :
    SameUnless deep (operandWith stop calls operand nested ts)
      (operandWith stop calls' operand' nested' ts) := by
  unfold operandWith
  cases hsign : take? (fun t => (sign? t).isSome) ts with
  | some sign =>
    have hsame := ho sign.value sign.rest (take?_eq_some_iff.1 hsign).2
    exact (hsame.same sign.rest List.suffix_rfl).bind fun _ _ => .refl _
  | none =>
    refine (primary_same hn).bind fun inner _ => ?_
    exact (suffixes_same (hcalls.sub 1) inner.value .none inner.rest).bind fun _ _ => .refl _

/-- An expression asks for its first operand at the first token, and for the others behind it. -/
theorem expressionWith_same {level : Nat} (hcalls : Below deep calls calls')
    (ho : SameUnless deep (operand ts) (operand' ts))
    (htail : ∀ r, operand ts = .ok r → r.rest <:+ ts)
    (he : ∀ level, SameBehind deep ts (expression level) (expression' level)) :
    SameUnless deep (expressionWith stop calls operand expression level ts)
      (expressionWith stop calls' operand' expression' level ts) :=
  ho.bind fun lhs hlhs => (climb_same hcalls lhs.value lhs.rest fun level =>
    (he level).suffix (htail lhs hlhs)).bind fun _ _ => .refl _

end Level

/-! ## Limits -/

/-- Within a greater limit the result is the same, or the first limit was too small for it. -/
theorem levels_same (hle : calls ≤ calls') :
    (∀ ts, SameUnless True (operand stop calls ts) (operand stop calls' ts)) ∧
      ∀ level ts,
        SameUnless True (expression stop calls level ts) (expression stop calls' level ts) := by
  induction calls using Nat.strongRecOn generalizing calls' with
  | ind calls ih =>
    cases calls with
    | zero =>
      exact ⟨fun ts => .inr ⟨trivial, operand_zero stop ts⟩,
        fun level ts => .inr ⟨trivial, expression_zero stop level ts⟩⟩
    | succ calls =>
      obtain ⟨calls', rfl⟩ := Nat.exists_eq_add_one_of_ne_zero (Nat.ne_of_gt (Nat.lt_of_lt_of_le
        (Nat.succ_pos calls) hle))
      have hle := Nat.le_of_succ_le_succ hle
      have hcalls : Below True calls calls' := .inr ⟨trivial, hle⟩
      obtain ⟨iho, ihe⟩ := ih calls (Nat.lt_succ_self calls) hle
      have hg := grammar_forward stop
      have ho : ∀ ts, SameBehind True ts (operand stop calls) (operand stop calls') :=
        fun _ _ _ _ => sameOn_of_forward (fun rest _ => iho rest) (hg calls).operand
      have he : ∀ ts level,
          SameBehind True ts (expression stop calls level) (expression stop calls' level) :=
        fun _ level _ _ _ => sameOn_of_forward (fun rest _ => ihe level rest)
          ((hg calls).expression level)
      have hn : ∀ ts between, SameBehind True ts (expression stop (calls - between) 0)
          (expression stop (calls' - between) 0) := fun _ between _ _ _ =>
        sameOn_of_forward (fun rest _ => (ih (calls - between)
          (Nat.lt_succ_of_le (Nat.sub_le ..)) (Nat.sub_le_sub_right hle between)).2 0 rest)
          ((hg (calls - between)).expression 0)
      rw [operand, operand, expression, expression]
      exact ⟨fun ts => operandWith_same hcalls (ho ts) (hn ts), fun level ts =>
        expressionWith_same hcalls (iho ts) (fun _ => (hg calls).operand.rest_suffix) (he ts)⟩

/-- A fault other than that of nesting too deeply. -/
def NotDeep (fault : Fault) : Prop := fault ≠ .malformed ⟨.tooDeep, 0⟩

theorem blamable_notDeep (pos : Nat) : Blamable NotDeep pos := by
  rintro cause hcause ⟨⟩
  exact hcause

/-- No token is blamed for nesting too deeply. -/
theorem grants_notDeep (stop : Nat) (ts : List Token) : Grants NotDeep stop ts where
  finish := blamable_notDeep stop
  tokens t _ := blamable_notDeep t.pos
  literals _ _ _ _ h := by cases h
  signed _ _ _ _ _ _ _ _ _ h := by cases h

/-- Without tokens there is no operand, whatever the limit. -/
theorem operandWith_nil (stop calls : Nat) (operand : Parser Expr) (nested : Nat → Parser Expr) :
    operandWith stop calls operand nested [] = fail (.unexpected (.finish stop)) stop := rfl

/-- Without tokens there is no expression either, and two calls are enough to see that. -/
theorem keeps_expression_nil (stop calls level : Nat) :
    Keeps NotDeep (PlacedIn NotDeep) [] (expression stop (calls + 2) level []) := by
  have hnil : expression stop (calls + 2) level [] = fail (.unexpected (.finish stop)) stop := by
    rw [expression, expressionWith, operand, operandWith_nil]
    rfl
  rw [hnil]
  exact keeps_fail (blamable_notDeep stop) trivial

/-- A limit of five calls for each token is never too small: an argument is five calls further in
than the expression that it nests in, and it stands behind the first token of that. -/
theorem levels_shallow :
    (5 * ts.length + 1 ≤ calls →
        Keeps NotDeep (PlacedIn NotDeep) ts (operand stop calls ts)) ∧
      (5 * ts.length + 2 ≤ calls → ∀ level,
        Keeps NotDeep (PlacedIn NotDeep) ts (expression stop calls level ts)) := by
  induction calls using Nat.strongRecOn generalizing ts with
  | ind calls ih =>
    have hg := grants_notDeep stop ts
    refine ⟨fun h => ?_, fun h level => ?_⟩
    · obtain ⟨calls, rfl⟩ := Nat.exists_eq_add_of_le' (Nat.le_trans (Nat.le_add_left 1 _) h)
      rw [operand]
      cases ts with
      | nil =>
        rw [operandWith_nil]
        exact keeps_fail (blamable_notDeep stop) trivial
      | cons t ts =>
        simp only [List.length_cons] at h
        have ho : KeepsTails NotDeep (PlacedIn NotDeep) (operand stop calls) ts := fun rest hr =>
          have := hr.length_le
          (ih calls (Nat.lt_succ_self _)).1 (by omega)
        have hn : ∀ between ≤ 3,
            KeepsTails NotDeep (PlacedIn NotDeep) (expression stop (calls - between) 0) ts :=
          fun between _ rest hr =>
            have := hr.length_le
            (ih (calls - between) (by omega)).2 (by omega) 0
        exact keeps_operandWith hg ho hn (fun _ _ _ => operand_number)
          ((levels_sized stop (calls - 1)).2 0) (.inr (by simp only [List.length_cons]; omega))
    · obtain ⟨calls, rfl⟩ := Nat.exists_eq_add_of_le' (Nat.le_trans (Nat.le_add_left 2 _) h)
      cases ts with
      | nil => exact keeps_expression_nil stop calls level
      | cons t ts =>
        simp only [List.length_cons] at h
        have hoperand := (ih (calls + 1) (Nat.lt_succ_self _)).1
          (show 5 * (t :: ts).length + 1 ≤ calls + 1 by simp only [List.length_cons]; omega)
        have he : ∀ level,
            KeepsTails NotDeep (PlacedIn NotDeep) (expression stop (calls + 1) level) ts :=
          fun level rest hr =>
            have := hr.length_le
            (ih (calls + 1) (Nat.lt_succ_self _)).2 (by omega) level
        have hsized := levels_sized stop (calls + 1)
        rw [expression]
        exact keeps_expressionWith hg hoperand he hsized.1 hsized.2
          (.inr (by simp only [List.length_cons]; omega))

theorem expression_ne_tooDeep (h : 5 * ts.length + 2 ≤ calls) (level : Nat) :
    expression stop calls level ts ≠ fail .tooDeep 0 := fun hdeep =>
  (levels_shallow.2 h level).faults _ hdeep rfl

/-- How a parser asks those for what nests in it: it comes to one result if these are replaced by
others that are the same behind the first token. Where there is no token, nothing is asked for. An
expression asks for its own left operand at the first token. -/
structure DescentsTake (stop : Nat) : Prop where
  operand : ∀ calls (o o' : Parser Expr) (n n' : Nat → Parser Expr) ts,
    Forward stop (fun ts => reading (o ts)) →
    (∀ between, Forward stop fun ts => reading (n between ts)) →
    (∀ t tail rest, ts = t :: tail → rest <:+ tail →
      o rest = o' rest ∧ ∀ between, n between rest = n' between rest) →
    operandWith stop calls o n ts = operandWith stop calls o' n' ts
  expression : ∀ calls (o o' : Parser Expr) (e e' : Nat → Parser Expr) level ts,
    Forward stop (fun ts => reading (o ts)) →
    (∀ level, Forward stop fun ts => reading (e level ts)) → o ts = o' ts →
    (∀ t tail rest, ts = t :: tail → rest <:+ tail → ∀ level, e level rest = e' level rest) →
    expressionWith stop calls o e level ts = expressionWith stop calls o' e' level ts

/-- With no limit in the way there is nothing but the one result. -/
theorem eq_of_sameUnless {x y : Except Fault α} (h : SameUnless False x y) : x = y :=
  h.resolve_right And.left

theorem descentsTake (stop : Nat) : DescentsTake stop where
  operand _ _ _ _ _ _ ho hn hsame := eq_of_sameUnless <| operandWith_same (.inl rfl)
    (fun t tail hts => sameOn_of_forward (fun rest hr => .inl (hsame t tail rest hts hr).1) ho)
    fun between t tail hts =>
      sameOn_of_forward (fun rest hr => .inl ((hsame t tail rest hts hr).2 between)) (hn between)
  expression _ _ _ _ _ _ _ ho he hfirst hsame := eq_of_sameUnless <| expressionWith_same (.inl rfl)
    (.inl hfirst) (fun _ => ho.rest_suffix) fun level t tail hts =>
      sameOn_of_forward (fun rest hr => .inl (hsame t tail rest hts hr level)) (he level)

/-- Five calls for each token, the mark at the end included, are enough for an expression. A limit
on the open calls makes a difference only where it is the reason for the result, and only in a row
that has at least a fifth as many tokens. -/
structure DepthBounded (stop : Nat) : Prop where
  ends : ∀ level ts, ∃ outcome, outcome ≠ fail .tooDeep 0 ∧
    ∀ limit, 5 * (ts ++ [Token.finish stop]).length ≤ limit →
      expression stop limit level ts = outcome
  limited : ∀ limit limit' level ts, limit ≤ limit' →
    expression stop limit level ts ≠ expression stop limit' level ts →
      expression stop limit level ts = fail .tooDeep 0 ∧
        limit < 5 * (ts ++ [Token.finish stop]).length
  rejected : ∀ limit ts, parseTokens stop ts limit = fail .tooDeep 0 →
    limit < 5 * (ts ++ [Token.finish stop]).length

theorem depthBounded (stop : Nat) : DepthBounded stop where
  ends level ts := by
    have hne : expression stop (5 * ts.length + 2) level ts ≠ fail .tooDeep 0 :=
      expression_ne_tooDeep (Nat.le_refl _) level
    refine ⟨_, hne, fun limit hlimit => ?_⟩
    simp only [List.length_append, List.length_singleton] at hlimit
    have hle : 5 * ts.length + 2 ≤ limit := by omega
    exact (((levels_same hle).2 level ts).resolve_right fun h => hne h.2).symm
  limited limit limit' level ts hle hne := by
    have hdeep := (((levels_same hle).2 level ts).resolve_left hne).2
    refine ⟨hdeep, ?_⟩
    have hlimit : ¬ 5 * ts.length + 2 ≤ limit := fun h => expression_ne_tooDeep h level hdeep
    simp only [List.length_append, List.length_singleton]
    omega
  rejected limit ts h := by
    have hlimit : ¬ 5 * ts.length + 2 ≤ limit := fun hle =>
      parseTokens_failsAmong_of_keeps (grants_notDeep stop ts) (levels_shallow.2 hle 0) _ h rfl
    simp only [List.length_append, List.length_singleton]
    omega

/-- Every parser of the grammar leaves a tail of its tokens, so it never moves back and always
stands at a token or at the mark at the end. Every turn of a loop takes a token or leaves the loop.
What nests is only asked for behind a token that was taken. So five calls for each token are enough,
and a limit on the open calls is the reason for a result only in a row with a fifth as many
tokens. -/
theorem parse_progress (stop : Nat) :
    (∀ calls, GrammarForward stop calls) ∧ (∀ calls, GrammarLoops stop calls) ∧
      DescentsTake stop ∧ DepthBounded stop :=
  ⟨grammar_forward stop, grammar_loops stop, descentsTake stop, depthBounded stop⟩

end PanelExport.Query
