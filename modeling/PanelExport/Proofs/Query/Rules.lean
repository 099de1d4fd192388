import PanelExport.Proofs.Query.Tree
import PanelExport.Proofs.Query.Types

/-!
# The rules of a node

What has to hold of a node for it to make sense whatever the data: the types and the number of its
operands, and how operators may stand below operators. The parser checks the first when it builds a
node; each of its checks accepts exactly the nodes that obey the rule.

* `Expr.WellTyped`: the types and numbers of the operands of a node.
* `Expr.Grouped`: an operator stands below another one only as their precedences allow.
* `checkSelector_eq_ok`, `checkCall_eq_ok`, `checkAggregate_eq_ok`, `checkBinary_eq_ok`,
  `applySign_eq_ok`: what the checks accept.
-/

namespace PanelExport.Query

/-! ## Types -/

/-- A selector has a name or a condition that leaves series out, and not two names. -/
def Selector.WellFormed (s : Selector) : Prop :=
  (s.name ≠ "" ∨ ∃ m ∈ s.matchers, m.excludesEmpty = true) ∧
    (s.name ≠ "" → ∀ m ∈ s.matchers, m.label ≠ metricNameLabel)

theorem Selector.WellFormed.matchers_ne_nil {s : Selector} (h : s.WellFormed) (hname : s.name = "") :
    s.matchers ≠ [] := by
  obtain ⟨m, hm, -⟩ := h.1.resolve_left (absurd hname)
  exact List.ne_nil_of_mem hm

/-- Arguments of these types may be given to a function. -/
def Signature.Accepts (s : Signature) (types : List ValueType) : Prop :=
  s.minArgs ≤ types.length ∧ (∀ greatest ∈ s.maxArgs?, types.length ≤ greatest) ∧
    ∀ i (h : i < types.length), s.argType? i = some types[i]

/-- The types that the operands of an operator may have, and whether it may return a truth value. -/
def BinaryOp.Accepts (op : BinaryOp) (lhs rhs : ValueType) (returnBool : Bool) : Prop :=
  (lhs.isOperand = true ∧ rhs.isOperand = true) ∧
    (op.isComparison = true → lhs = .scalar → rhs = .scalar → returnBool = true) ∧
    (op.isSetOperator = true → lhs ≠ .scalar ∧ rhs ≠ .scalar)

namespace Expr

/-- A number on its own. -/
def IsNumber : Expr → Prop
  | .number _ _ => True
  | _ => False

/-- The rules about types and numbers of operands that a node has to obey. -/
def WellTyped : Expr → Prop
  | .number _ _ => True
  | .text _ _ => True
  | .selector s => s.WellFormed
  | .matrix _ s _ => s.WellFormed
  | .subquery _ e _ _ => e.type = .instant
  | .call _ function args returns =>
    ∃ s, signature? function = some s ∧ s.Accepts (args.map type) ∧ s.returns = returns
  | .aggregate _ op e parameter? _ => e.type = .instant ∧ parameter?.map type = op.parameter?
  | .binary _ op lhs rhs returnBool =>
    op.Accepts lhs.type rhs.type returnBool ∧ (returnBool = true → op.isComparison = true)
  | .unary _ _ e => e.type.isOperand = true ∧ ¬ e.IsNumber
  | .paren _ _ => True

/-! ## Precedence -/

/-- The operator of a binary expression. -/
def rootOp? : Expr → Option BinaryOp
  | .binary _ op _ _ _ => some op
  | _ => none

end Expr

/-- The left operand of an operator may have this operator at its root. -/
def BinaryOp.AllowsLeft (op inner : BinaryOp) : Prop :=
  op.precedence ≤ inner.precedence ∧ op ≠ .pow

/-- The right operand of an operator may have this operator at its root. -/
def BinaryOp.AllowsRight (op inner : BinaryOp) : Prop :=
  op.precedence < inner.precedence ∨ op = .pow ∧ inner = .pow

/-- Operators stand below an operator or a sign only as their precedences allow. -/
def Expr.Grouped : Expr → Prop
  | .binary _ op lhs rhs _ =>
    (∀ inner ∈ lhs.rootOp?, op.AllowsLeft inner) ∧ ∀ inner ∈ rhs.rootOp?, op.AllowsRight inner
  | .unary _ _ e => e.rootOp? = none
  | _ => True

namespace BinaryOp

theorem eq_pow_of_precedence {op : BinaryOp} (h : pow.precedence ≤ op.precedence) : op = .pow := by
  revert h
  cases op <;> decide

theorem rightLevel_pow : pow.rightLevel = pow.precedence := rfl

theorem rightLevel_of_ne {op : BinaryOp} (h : op ≠ .pow) : op.rightLevel = op.precedence + 1 := by
  simp [rightLevel, h]

/-- The right operand's least precedence says which operators it may have at its root. -/
theorem allowsRight_iff {op inner : BinaryOp} :
    op.AllowsRight inner ↔ op.rightLevel ≤ inner.precedence := by
  by_cases h : op = .pow
  · subst h
    constructor
    · rintro (h | ⟨-, rfl⟩)
      · exact Nat.le_of_lt h
      · exact Nat.le_refl _
    · exact fun h => .inr ⟨rfl, eq_pow_of_precedence h⟩
  · rw [rightLevel_of_ne h]
    exact ⟨fun hr => hr.elim id fun hp => absurd hp.1 h, .inl⟩

/-- The operator behind a binary expression takes it as its left operand just if it cannot go on
with the right operand. -/
theorem allowsLeft_iff {op inner : BinaryOp} :
    op.AllowsLeft inner ↔ op.precedence < inner.rightLevel := by
  by_cases h : inner = .pow
  · subst h
    rw [rightLevel_pow, AllowsLeft]
    constructor
    · rintro ⟨-, h⟩
      exact Nat.lt_of_not_le fun hp => h (eq_pow_of_precedence hp)
    · intro h
      exact ⟨Nat.le_of_lt h, fun hp => Nat.lt_irrefl _ (hp ▸ h)⟩
  · rw [rightLevel_of_ne h, AllowsLeft, Nat.lt_succ_iff]
    refine ⟨And.left, fun hp => ⟨hp, ?_⟩⟩
    rintro rfl
    exact h (eq_pow_of_precedence hp)

end BinaryOp

/-! ## What the checks accept -/

theorem checkSelector_eq_ok {s s' : Selector} :
    checkSelector s = .ok s' ↔ s' = s ∧ s.WellFormed := by
  unfold checkSelector Selector.WellFormed
  split
  · rename_i m hm
    have hl : m.label = metricNameLabel ∧ s.name ≠ "" := by simpa using List.find?_some hm
    refine ⟨fun h => absurd h fail_ne_ok, fun ⟨_, _, h⟩ => ?_⟩
    exact absurd hl.1 (h hl.2 m (List.mem_of_find?_eq_some hm))
  · rename_i hm
    have hl : s.name ≠ "" → ∀ m ∈ s.matchers, m.label ≠ metricNameLabel := by
      intro hn m hs he
      simp [List.find?_eq_none] at hm
      exact hn (hm m hs he)
    split
    · rename_i he
      have he : s.name = "" ∧ ∀ m ∈ s.matchers, m.excludesEmpty = false := by simpa using he
      refine ⟨fun h => absurd h fail_ne_ok, fun ⟨_, h, _⟩ => ?_⟩
      rcases h with h | ⟨m, hs, h⟩
      · exact absurd he.1 h
      · simp [he.2 m hs] at h
    · rename_i he
      refine ⟨fun h => ?_, fun h => by rw [h.1]⟩
      cases h
      refine ⟨rfl, ?_, hl⟩
      by_cases hn : s.name = ""
      · exact .inr (by simpa [hn] using he)
      · exact .inl hn

theorem checkBinary_eq_ok {calls pos : Nat} {op : BinaryOp} {lhs rhs e : Expr}
    {returnBool : Bool} :
    checkBinary calls pos op lhs rhs returnBool = .ok e ↔
      e = .binary pos op lhs rhs returnBool ∧ op.Accepts lhs.type rhs.type returnBool ∧
        lhs.typeCalls ≤ calls ∧ rhs.typeCalls ≤ calls := by
  unfold checkBinary BinaryOp.Accepts
  simp only [bind_eq_ok, operandType_eq_ok]
  constructor
  · rintro ⟨_, ⟨hleft, rfl, hl⟩, _, ⟨hright, rfl, hr⟩, h⟩
    split at h
    · exact absurd h fail_ne_ok
    · rename_i hc
      split at h
      · exact absurd h fail_ne_ok
      · rename_i hs
        cases h
        refine ⟨rfl, ⟨⟨hl, hr⟩, fun h₁ h₂ h₃ => ?_, fun h => ?_⟩, hleft, hright⟩
        · simpa [h₁, h₂, h₃] using hc
        · simpa [h] using hs
  · rintro ⟨rfl, ⟨⟨hl, hr⟩, hc, hs⟩, hleft, hright⟩
    refine ⟨_, ⟨hleft, rfl, hl⟩, _, ⟨hright, rfl, hr⟩, ?_⟩
    rw [if_neg, if_neg]
    · rfl
    · simp only [Bool.and_eq_true, Bool.or_eq_true, beq_iff_eq]
      exact fun h => absurd h.2 (not_or.2 (hs h.1))
    · simp only [Bool.and_eq_true, beq_iff_eq, Bool.not_eq_true']
      rintro ⟨⟨⟨h₁, h₂⟩, h₃⟩, hb⟩
      simp [hc h₁ h₂ h₃] at hb

theorem wrongArgument?_eq_none {s : Signature} {index : Nat} {args : List Expr} :
    wrongArgument? s index args = none ↔
      ∀ i (h : i < args.length), ∀ expected ∈ s.argType? (index + i), args[i].type = expected := by
  induction args generalizing index with
  | nil => simp [wrongArgument?]
  | cons arg args ih =>
    have hstep : wrongArgument? s (index + 1) args = none ↔
        ∀ i (h : i + 1 < (arg :: args).length), ∀ expected ∈ s.argType? (index + (i + 1)),
          (arg :: args)[i + 1].type = expected := by
      rw [ih]
      simp only [List.length_cons, Nat.add_lt_add_iff_right, List.getElem_cons_succ,
        Nat.add_assoc, Nat.add_comm 1]
    constructor
    · intro h i hi expected he
      cases i with
      | zero =>
        simp only [Nat.add_zero, Option.mem_def] at he
        by_cases ht : arg.type = expected
        · exact ht
        · simp [wrongArgument?, he, ht] at h
      | succ i =>
        refine hstep.1 ?_ i hi expected he
        unfold wrongArgument? at h
        split at h
        · split at h
          · exact h
          · cases h
        · exact h
    · intro h
      have hrest := hstep.2 fun i hi => h (i + 1) hi
      unfold wrongArgument?
      split
      · rename_i expected he
        have ht : arg.type = expected := h 0 (by simp) expected (by simpa using he)
        rw [if_pos ht]
        exact hrest
      · exact hrest

/-- Only a function that takes no argument at all has no type for one. -/
theorem signatures_argTypes : ∀ s ∈ signatures, s.argTypes = [] → s.repetition = .exactly := by
  decide

theorem mem_signatures {name : String} {s : Signature} (h : signature? name = some s) :
    s ∈ signatures ∧ s.name = name :=
  ⟨List.mem_of_find?_eq_some h, by simpa using List.find?_some h⟩

/-- Every argument that a call may have is given a type. -/
theorem Signature.argType?_isSome {s : Signature} (hs : s.argTypes = [] → s.repetition = .exactly)
    {n i : Nat} (hn : ∀ greatest ∈ s.maxArgs?, n ≤ greatest) (hi : i < n) :
    (s.argType? i).isSome = true := by
  have hne : 0 < s.argTypes.length := by
    refine List.length_pos_iff.2 fun he => ?_
    have := hn 0 (by simp [maxArgs?, hs he, he])
    omega
  simp only [argType?, isSome_getElem?]
  omega

/-- A call is checked against its signature, if only a function with a fixed number of arguments
may have none. -/
theorem checkCall_eq_ok_of_argTypes {pos : Nat} {s : Signature}
    (hs : s.argTypes = [] → s.repetition = .exactly) {args : List Expr} {e : Expr} :
    checkCall pos s args = .ok e ↔
      e = .call pos s.name args s.returns ∧ s.Accepts (args.map Expr.type) := by
  unfold checkCall Signature.Accepts
  simp only [List.length_map, List.getElem_map]
  split
  · rename_i h
    exact ⟨fun h => absurd h fail_ne_ok, fun ⟨_, hl, _⟩ => absurd h (Nat.not_lt.2 hl)⟩
  · rename_i hl
    split
    · rename_i greatest hg
      obtain ⟨hg, hlt⟩ := Option.filter_eq_some_iff.1 hg
      refine ⟨fun h => absurd h fail_ne_ok, fun ⟨_, _, hm, _⟩ => ?_⟩
      exact absurd (hm greatest hg) (by simpa using hlt)
    · rename_i hg
      have hm : ∀ greatest ∈ s.maxArgs?, args.length ≤ greatest := by
        simpa [Option.filter_eq_none_iff] using hg
      split
      · rename_i expected arg hw
        refine ⟨fun h => absurd h fail_ne_ok, fun ⟨_, _, _, ht⟩ => ?_⟩
        have hn : wrongArgument? s 0 args = none := by
          rw [wrongArgument?_eq_none]
          intro i hi expected he
          rw [Nat.zero_add, ht i hi] at he
          exact Option.some.inj he
        rw [hn] at hw
        cases hw
      · rename_i hw
        rw [wrongArgument?_eq_none] at hw
        refine ⟨fun h => ?_, fun h => by rw [h.1]⟩
        cases h
        refine ⟨rfl, Nat.le_of_not_lt hl, hm, fun i hi => ?_⟩
        obtain ⟨expected, he⟩ := Option.isSome_iff_exists.1 (Signature.argType?_isSome hs hm hi)
        rw [he, hw i hi expected (by simpa using he)]

theorem checkCall_eq_ok {pos : Nat} {s : Signature} (hs : s ∈ signatures) {args : List Expr}
    {e : Expr} : checkCall pos s args = .ok e ↔
      e = .call pos s.name args s.returns ∧ s.Accepts (args.map Expr.type) :=
  checkCall_eq_ok_of_argTypes (signatures_argTypes s hs)

/-- The arguments of an aggregation are its parameter, if it has one, and its operand. -/
private theorem arguments_eq_iff {args : List Expr} {inner : Expr} {parameter? : Option Expr} :
    args = parameter?.toList ++ [inner] ↔
      parameter? = none ∧ args = [inner] ∨ ∃ p, parameter? = some p ∧ args = [p, inner] := by
  cases parameter? <;> simp

theorem checkAggregate_eq_ok {pos : Nat} {op : AggregateOp} {g : Grouping} {args : List Expr}
    {e : Expr} : checkAggregate pos op g args = .ok e ↔
      ∃ inner parameter?, e = .aggregate pos op inner parameter? g ∧
        args = parameter?.toList ++ [inner] ∧ inner.type = .instant ∧
        parameter?.map Expr.type = op.parameter? := by
  simp only [arguments_eq_iff]
  constructor
  · unfold checkAggregate
    simp only
    intro h
    split at h
    · rename_i inner hp
      split at h
      · rename_i ht
        cases h
        exact ⟨inner, none, rfl, .inl ⟨rfl, rfl⟩, ht, hp.symm⟩
      · exact absurd h fail_ne_ok
    · exact absurd h fail_ne_ok
    · rename_i expected p inner hp
      split at h
      · rename_i htp
        split at h
        · rename_i ht
          cases h
          exact ⟨inner, some p, rfl, .inr ⟨p, rfl, rfl⟩, ht, by simp [hp, htp]⟩
        · exact absurd h fail_ne_ok
      · exact absurd h fail_ne_ok
    · exact absurd h fail_ne_ok
  · rintro ⟨inner, parameter?, rfl, ⟨rfl, rfl⟩ | ⟨p, rfl, rfl⟩, ht, hp⟩
    · simp [checkAggregate, ← hp, ht]
    · simp [checkAggregate, ← hp, ht]

theorem applySign_eq_ok {pos : Nat} {sign : Sign} {e node : Expr} :
    applySign pos sign e = .ok node ↔ e.type.isOperand = true ∧
      ((∃ p v v', e = .number p v ∧ v.signed (sign == .minus) = .ok v' ∧ node = .number pos v') ∨
        ¬ e.IsNumber ∧ node = .unary pos sign e) := by
  unfold applySign
  split
  · rename_i h
    exact ⟨fun h => absurd h fail_ne_ok, fun ⟨ht, _⟩ => by simp [ht] at h⟩
  · rename_i h
    have ht : e.type.isOperand = true := by simpa using h
    split
    · rename_i p v
      split
      · rename_i v' hv
        constructor
        · intro h
          cases h
          exact ⟨ht, .inl ⟨p, v, v', rfl, hv, rfl⟩⟩
        · rintro ⟨-, ⟨p', v₁, v₂, he, hv', rfl⟩ | ⟨hn, -⟩⟩
          · cases he
            rw [hv] at hv'
            cases hv'
            rfl
          · exact absurd trivial hn
      · rename_i fault hv
        refine ⟨nofun, ?_⟩
        rintro ⟨-, ⟨p', v₁, v₂, he, hv', rfl⟩ | ⟨hn, -⟩⟩
        · cases he
          rw [hv] at hv'
          cases hv'
        · exact absurd trivial hn
    · rename_i hn
      have hn : ¬ e.IsNumber := by
        cases e with
        | number p v => exact absurd rfl (hn p v)
        | _ => exact id
      constructor
      · intro h
        cases h
        exact ⟨ht, .inr ⟨hn, rfl⟩⟩
      · rintro ⟨-, ⟨p, v, v', rfl, -⟩ | ⟨-, rfl⟩⟩
        · exact absurd trivial hn
        · rfl

end PanelExport.Query
