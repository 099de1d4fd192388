import PanelExport.Proofs.Query.Printed
import PanelExport.Proofs.Query.Values

/-!
# The levels of the grammar

What it means for tokens to be read back as a tree, at each level of the grammar: as a primary, as
an operand and as an expression. The tree is read within every limit on the open calls that it fits
into, and within a smaller one the limit is the fault. What follows must not go on with the last
part of the tree.

* `ReadsPrimary.suffixed`, `ReadsOperand.signed`: an operand from a primary with what stands behind
  it, or from an operand with what stands in front of it.
* `ReadsOperand.expression`: an operand is an expression.
* `ReadsExpression.complete`: an expression is read to its end.
* `readsOperand_number`: the words of a number are an operand.
-/

namespace PanelExport.Query

/-! ## What follows -/

/-- A token that does not make the name before it one of a function or an aggregation: it opens
neither arguments nor a grouping clause. -/
def Token.EndsCallee (t : Token) : Prop :=
  t.kind ≠ .leftParen ∧ t.isWord ["by", "without"] = false

/-- A token that does not go on with a name, not with the conditions of a selector either. -/
def Token.EndsName (t : Token) : Prop :=
  t.kind ≠ .leftBrace ∧ t.EndsCallee

/-- Nothing follows that goes on with a primary. -/
def EndsPrimary (rest : List Token) : Prop := ∀ t ∈ rest.head?, t.EndsName

/-- Nothing follows that goes on with an operand. -/
def EndsOperand (rest : List Token) : Prop :=
  ∀ t ∈ rest.head?, t.EndsName ∧ t.isSuffix = false

theorem EndsOperand.primary {rest : List Token} (h : EndsOperand rest) : EndsPrimary rest :=
  fun t ht => (h t ht).1

/-- Nothing follows, or the end of an argument or of parentheses. -/
def Closed (rest : List Token) : Prop :=
  ∀ t ∈ rest.head?, t.kind = .comma ∨ t.kind = .rightParen

theorem Closed.operand {rest : List Token} (h : Closed rest) : EndsOperand rest := by
  intro t ht
  rcases h t ht with hk | hk <;>
    simp [Token.EndsName, Token.EndsCallee, Token.isSuffix, Token.isWord, hk]

theorem Closed.nextOp?_eq_none {rest : List Token} (h : Closed rest) : nextOp? rest = none := by
  cases rest with
  | nil => rfl
  | cons t rest => rcases h t rfl with hk | hk <;> simp [nextOp?, binaryOp?, hk]

/-! ## What is read back -/

section

variable (stop : Nat) (ts : List Token) (e : Expr)

/-- The tokens are read as a primary. -/
def ReadsPrimary : Prop :=
  ∀ calls rest, EndsPrimary rest →
    reading (primary stop (fun between => expression stop (calls - between) 0) (ts ++ rest)) =
      if e.calls ≤ calls + 2 then .ok (e, rest) else fail .tooDeep 0

/-- The tokens are read as an operand. -/
def ReadsOperand : Prop :=
  ∀ calls rest, EndsOperand rest → reading (operand stop calls (ts ++ rest)) =
    if e.calls ≤ calls + 1 then .ok (e, rest) else fail .tooDeep 0

/-- The tokens are read as an expression. What follows is left to the climb over the operators,
which starts with the whole tree, unless the next operator would take a part of it. -/
def ReadsExpression : Prop :=
  ∀ calls level rest, EndsOperand rest →
    (∀ inner ∈ e.rootOp?, ∀ op ∈ nextOp? rest, op.precedence < inner.rightLevel) →
    (∀ op ∈ e.rootOp?, level ≤ op.precedence) →
    reading (expression stop calls level (ts ++ rest)) =
      if e.calls ≤ calls then
        reading (climb stop (calls - 1) (expression stop (calls - 1)) level e rest)
      else fail .tooDeep 0

end

variable {stop : Nat} {ts : List Token} {e : Expr}

theorem climb_stays {calls : Nat} {expression : Nat → Parser Expr} {level : Nat}
    {rest : List Token} (h : ∀ op ∈ nextOp? rest, op.precedence < level) :
    reading (climb stop calls expression level e rest) = .ok (e, rest) :=
  climb_iff.2 (.done h)

/-- If no operator follows that binds as tightly as the level, an expression is read to its end. -/
theorem ReadsExpression.complete (h : ReadsExpression stop ts e) {level : Nat} {rest : List Token}
    (hr : EndsOperand rest) (hn : ∀ op ∈ nextOp? rest, op.precedence < level)
    (hl : ∀ op ∈ e.rootOp?, level ≤ op.precedence) (calls : Nat) :
    reading (expression stop calls level (ts ++ rest)) =
      if e.calls ≤ calls then .ok (e, rest) else fail .tooDeep 0 := by
  have hinner : ∀ inner ∈ e.rootOp?, ∀ op ∈ nextOp? rest, op.precedence < inner.rightLevel := by
    intro inner hi op ho
    have hprecedence : inner.precedence ≤ inner.rightLevel := by
      unfold BinaryOp.rightLevel
      split <;> omega
    exact Nat.lt_of_lt_of_le (hn op ho) (Nat.le_trans (hl inner hi) hprecedence)
  rw [h calls level rest hr hinner hl, climb_stays hn]

/-- An expression that nothing goes on with is read to its end. -/
theorem ReadsExpression.closed (h : ReadsExpression stop ts e) {rest : List Token} (hr : Closed rest)
    (calls : Nat) : reading (expression stop calls 0 (ts ++ rest)) =
      if e.calls ≤ calls then .ok (e, rest) else fail .tooDeep 0 :=
  h.complete hr.operand (by simp [hr.nextOp?_eq_none]) (fun _ _ => Nat.zero_le _) calls

/-- An operand is an expression. -/
theorem ReadsOperand.expression (h : ReadsOperand stop ts e) : ReadsExpression stop ts e := by
  intro calls level rest hr _ _
  cases calls with
  | zero =>
    rw [expression_zero, if_neg (by have := e.two_le_calls; omega)]
    rfl
  | succ calls =>
    rw [PanelExport.Query.expression, reading_expressionWith, h calls rest hr, Nat.add_sub_cancel]
    split <;> rfl

/-- A primary does not start with a sign. -/
theorem ReadsPrimary.start (h : ReadsPrimary stop ts e) :
    ∃ t ts', ts = t :: ts' ∧ t.kind ≠ .operator := by
  -- Otherwise the primary would fail, within a limit that the tree fits into.
  have hread := h e.calls [] nofun
  rw [if_pos (Nat.le_add_right _ _), List.append_nil] at hread
  cases ts with
  | nil => exact absurd hread fail_ne_ok
  | cons t ts =>
    refine ⟨t, ts, rfl, fun ht => ?_⟩
    rw [reading_primary, ht] at hread
    exact absurd hread fail_ne_ok

/-- A primary with what stands behind it is an operand. So many calls are needed for the types that
this asks for. -/
theorem ReadsPrimary.suffixed {us : List Token} {node : Expr} {needed : Nat}
    (h : ReadsPrimary stop ts node) (hcalls : e.calls = max node.calls needed)
    (he : ∀ calls rest, EndsOperand rest → EndsPrimary (us ++ rest) ∧
      reading (suffixes stop (calls - 1) node .none (us ++ rest)) =
        if needed ≤ calls + 2 then .ok (e, rest) else fail .tooDeep 0) :
    ReadsOperand stop (ts ++ us) e := by
  intro calls rest hr
  obtain ⟨t, ts', rfl, ht⟩ := h.start
  cases calls with
  | zero =>
    rw [operand_zero, if_neg (by have := e.two_le_calls; omega)]
    rfl
  | succ calls =>
    obtain ⟨hends, hsuffixes⟩ := he calls rest hr
    have hsign : take? (fun t => (sign? t).isSome) (t :: (ts' ++ (us ++ rest))) = none :=
      take?_cons_of_false (by simp [sign?, ht]) _
    rw [operand, reading_operandWith, List.append_assoc, List.cons_append, hsign,
      ← List.cons_append, h calls (us ++ rest) hends, hcalls]
    simp only
    by_cases hnode : node.calls ≤ calls + 2
    · rw [if_pos hnode]
      simp only [bind, Except.bind, hsuffixes, Nat.max_le, hnode, true_and]
    · rw [if_neg hnode, if_neg fun hmax => hnode (Nat.max_le.1 hmax).1]
      rfl

/-- A primary is an operand. -/
theorem ReadsPrimary.operand (h : ReadsPrimary stop ts e) : ReadsOperand stop ts e := by
  rw [← List.append_nil ts]
  refine h.suffixed (Nat.max_zero _).symm fun calls rest hr => ⟨hr.primary, ?_⟩
  rw [if_pos (Nat.zero_le _)]
  exact suffixes_iff.2 (.done fun t ht => (hr t ht).2)

/-- An operand with a sign is an operand. -/
theorem ReadsOperand.signed (h : ReadsOperand stop ts e) {t : Token} {sign : Sign} {node : Expr}
    (hsign : sign? t = some sign) (happly : applySign t.pos sign e = .ok node)
    (hh : node.calls = e.calls + 1) : ReadsOperand stop (t :: ts) node := by
  intro calls rest hr
  cases calls with
  | zero =>
    rw [operand_zero, if_neg (by have := e.two_le_calls; omega)]
    rfl
  | succ calls =>
    have htake := take?_cons_of_true (p := fun t => (sign? t).isSome) (t := t) (by simp [hsign])
      (ts ++ rest)
    rw [PanelExport.Query.operand, reading_operandWith, List.cons_append, htake]
    simp only [h calls rest hr, hh, Nat.add_le_add_iff_right, hsign, Option.getD_some]
    split
    · simp [bind, Except.bind, happly, pure, Except.pure]
    · rfl

/-- A tree without a tree below it is read within every limit that leaves room for an operand. -/
theorem readsPrimary_leaf (hh : e.calls = 2)
    (h : ∀ nested rest, EndsPrimary rest →
      reading (primary stop nested (ts ++ rest)) = .ok (e, rest)) :
    ReadsPrimary stop ts e := by
  intro calls rest hr
  rw [h _ _ hr, hh, if_pos (by omega)]

/-! ## Names -/

theorem EndsPrimary.current {rest : List Token} (h : EndsPrimary rest) :
    (current stop rest).EndsCallee := by
  cases rest with
  | nil => exact ⟨by simp [PanelExport.Query.current, Token.finish],
      Token.isWord_of_kind (by simp [PanelExport.Query.current, Token.finish]) _⟩
  | cons t rest => exact (h t rfl).2

/-- A name that nothing goes on with is a number or a selector. -/
theorem reading_named_of_ends {argument : Parser Expr} {name : Token} {rest : List Token}
    (h : (current stop rest).EndsCallee) :
    reading (named stop argument name rest) =
      match numberWord? name with
      | some x => .ok (.number name.pos (.double x), rest)
      | none =>
        if name.value.toLower ∈ reservedWords then fail (.unexpected name) name.pos
        else do
          let (s, rest) ← reading (selector stop name.pos name.value rest)
          return (.selector s, rest) := by
  have hstart : aggregateStart? name (current stop rest) = none := by
    simp [aggregateStart?, h.1, h.2]
  rw [reading_named, hstart]
  exact if_neg h.1

/-! ## Numbers and texts -/

/-- The word for a number without a sign is read as the number. -/
theorem readsPrimary_double {x : Double} (h : x.isNegative = false) {t : Token}
    (ht : t.Is (doubleWord x)) : ReadsPrimary stop [t] (.number t.pos (.double x)) := by
  have hname : ∀ {x : Double}, t.Is (.name x.text) → numberWord? t = some x → x.isNegative = false →
      ReadsPrimary stop [t] (.number t.pos (.double x)) := by
    intro x ht hx hn
    refine readsPrimary_leaf (by simp [Expr.calls, hn]) fun nested rest hr => ?_
    rw [List.singleton_append, reading_primary, show t.kind = .identifier from ht.1]
    simp only [reading_named_of_ends hr.current, hx]
  cases x with
  | nan => exact hname ht (by rw [numberWord?, ht.2]; decide +kernel) h
  | infinite s =>
    obtain rfl : s = false := h
    exact hname ht (by rw [numberWord?, ht.2]; decide +kernel) rfl
  | finite s m e fits =>
    obtain rfl : s = false := h
    obtain ⟨n, hn⟩ := Double.exists_spelling fits
    refine readsPrimary_leaf (by simp [Expr.calls, Double.isNegative]) fun nested rest _ => ?_
    rw [List.singleton_append, reading_primary, show t.kind = .number from ht.1, ht.2]
    simp only [doubleWord, Word.plain, numberValue_double hn]

theorem readsPrimary_seconds {n : Nat} (h : (toString n).length ≤ digitLimit) {t : Token}
    (ht : t.Is (.plain .duration (toString n ++ "s"))) :
    ReadsPrimary stop [t] (.number t.pos (.whole n)) := by
  refine readsPrimary_leaf rfl fun nested rest _ => ?_
  rw [List.singleton_append, reading_primary, show t.kind = .duration from ht.1, ht.2]
  simp only [Word.plain, numberValue_seconds h]

theorem sign?_word {sign : Sign} {t : Token} (h : t.Is sign.word) : sign? t = some sign := by
  rw [sign?, show t.kind = .operator from h.1, h.2]
  cases sign <;> rfl

/-- The words for a number are an operand. -/
theorem readsOperand_number (stop : Nat) {value : Number} (h : value.Spellable)
    (hs : Stand ts value.words) : ∃ pos, ReadsOperand stop ts (.number pos value) := by
  cases value with
  | whole n =>
    obtain ⟨t, rfl, ht⟩ := stand_single.1 hs
    obtain ⟨hn, hlength⟩ := h
    have hprimary : ReadsPrimary stop [t] (.number t.pos (.whole n.natAbs)) :=
      readsPrimary_seconds hlength ht
    rw [Int.natAbs_of_nonneg hn] at hprimary
    exact ⟨t.pos, hprimary.operand⟩
  | double x =>
    rw [Number.words] at hs
    split at hs
    · rename_i hx
      obtain ⟨t, us, rfl, ht, hus⟩ := stand_cons.1 hs
      obtain ⟨u, rfl, hu⟩ := stand_single.1 hus
      have hneg : x.neg.isNegative = false := by
        cases x <;> simp_all [Double.isNegative, Double.neg]
      have hoperand : ReadsOperand stop [u] (.number u.pos (.double x.neg)) :=
        (readsPrimary_double hneg hu).operand
      refine ⟨t.pos, hoperand.signed (sign?_word ht) ?_ ?_⟩
      · exact applySign_eq_ok.2 ⟨rfl, .inl ⟨u.pos, _, _, rfl, signed_neg hx, rfl⟩⟩
      · simp [Expr.calls, hx, hneg]
    · rename_i hx
      obtain ⟨t, rfl, ht⟩ := stand_single.1 hs
      exact ⟨t.pos, (readsPrimary_double (by simpa using hx) ht).operand⟩

/-- A text in quotes is a primary. -/
theorem readsPrimary_text {value : String} {t : Token} (ht : t.Is (.quoted value)) :
    ReadsPrimary stop [t] (.text t.pos value) := by
  refine readsPrimary_leaf rfl fun nested rest _ => ?_
  rw [List.singleton_append, reading_primary, show t.kind = .text from ht.1, ht.2]
  rfl

end PanelExport.Query
