import PanelExport.Proofs.Query.Reading

/-!
# Finding a type

The type of an expression is found in one call for each node on the way down to the nodes that know
theirs. A binary expression looks at its right operand only behind a scalar.

* `Expr.typeCalls`: how many calls are open at once while a type is found.
* `typeWithin_eq`: a type is found within so many calls, or the limit is reached.
* `operandType_eq_ok`: the operands that an operator may have.
-/

namespace PanelExport.Query

namespace Expr

/-- How many calls are open at once while the type of an expression is found. -/
def typeCalls : Expr → Nat
  | .binary _ _ lhs rhs _ =>
    (if lhs.type = .scalar then max lhs.typeCalls rhs.typeCalls else lhs.typeCalls) + 1
  | .unary _ _ e => e.typeCalls + 1
  | .paren _ e => e.typeCalls + 1
  | _ => 1

theorem typeCalls_pos (e : Expr) : 0 < e.typeCalls := by
  cases e <;> simp [typeCalls]

/-- Neither operand of an operator has a type that takes more calls than the operator's own. -/
theorem typeCalls_binary_le (pos : Nat) (op : BinaryOp) (lhs rhs : Expr) (returnBool : Bool) :
    (binary pos op lhs rhs returnBool).typeCalls ≤ max lhs.typeCalls rhs.typeCalls + 1 := by
  rw [typeCalls]
  split <;> omega

/-- The type of an expression is found if as many calls as that takes may be open at once. -/
theorem typeWithin_eq (calls : Nat) (e : Expr) :
    e.typeWithin calls = if e.typeCalls ≤ calls then .ok e.type else fail .tooDeep 0 := by
  induction calls generalizing e with
  | zero =>
    have := e.typeCalls_pos
    rw [typeWithin, if_neg (by omega)]
  | succ calls ih =>
    cases e with
    | binary pos op lhs rhs returnBool =>
      simp only [typeWithin, ih, typeCalls, type, Nat.add_le_add_iff_right]
      by_cases hl : lhs.typeCalls ≤ calls
      · by_cases hscalar : lhs.type = .scalar
        · by_cases hr : rhs.typeCalls ≤ calls
          · have hmax : max lhs.typeCalls rhs.typeCalls ≤ calls := by omega
            by_cases hrs : rhs.type = .scalar <;>
              simp [hl, hr, hmax, hscalar, hrs, bind, Except.bind, pure, Except.pure]
          · have hmax : ¬ max lhs.typeCalls rhs.typeCalls ≤ calls := by omega
            rw [if_pos hl, if_neg hr, if_pos hscalar, if_neg hmax]
            simp [hscalar, bind, Except.bind, fail]
        · simp [hl, hscalar, bind, Except.bind, pure, Except.pure]
      · have hmany : ¬ (if lhs.type = .scalar then max lhs.typeCalls rhs.typeCalls
            else lhs.typeCalls) ≤ calls := by
          split <;> omega
        rw [if_neg hl, if_neg hmany]
        rfl
    | unary => simp only [typeWithin, ih, typeCalls, type, Nat.add_le_add_iff_right]
    | paren => simp only [typeWithin, ih, typeCalls, type, Nat.add_le_add_iff_right]
    | _ => simp [typeWithin, typeCalls]

theorem typeWithin_eq_ok {calls : Nat} {e : Expr} {type : ValueType} :
    e.typeWithin calls = .ok type ↔ e.typeCalls ≤ calls ∧ type = e.type := by
  rw [typeWithin_eq]
  split
  · rename_i h
    simp [h, eq_comm]
  · rename_i h
    simp [h, fail]

end Expr

theorem operandType_eq_ok {calls pos : Nat} {e : Expr} {type : ValueType} :
    operandType calls pos e = .ok type ↔
      e.typeCalls ≤ calls ∧ type = e.type ∧ e.type.isOperand = true := by
  unfold operandType
  simp only [bind_eq_ok, Expr.typeWithin_eq_ok]
  constructor
  · rintro ⟨_, ⟨hcalls, rfl⟩, h⟩
    split at h
    · rename_i hoperand
      cases h
      exact ⟨hcalls, rfl, hoperand⟩
    · exact absurd h fail_ne_ok
  · rintro ⟨hcalls, rfl, hoperand⟩
    exact ⟨_, ⟨hcalls, rfl⟩, by simp [hoperand, pure, Except.pure]⟩

/-- Operands that an operator may have are refused only if one of their types is not found. -/
theorem checkBinary_eq_tooDeep {calls pos : Nat} {op : BinaryOp} {lhs rhs : Expr}
    {returnBool : Bool} (h : lhs.type.isOperand = true ∧ rhs.type.isOperand = true)
    (hlarge : ¬ max lhs.typeCalls rhs.typeCalls ≤ calls) :
    checkBinary calls pos op lhs rhs returnBool = fail .tooDeep 0 := by
  simp only [checkBinary, operandType, Expr.typeWithin_eq]
  by_cases hl : lhs.typeCalls ≤ calls
  · have hr : ¬ rhs.typeCalls ≤ calls := fun hr => hlarge (Nat.max_le.2 ⟨hl, hr⟩)
    simp only [if_pos hl, if_neg hr, bind, Except.bind, h.1, if_true]
    rfl
  · simp only [if_neg hl]
    rfl

end PanelExport.Query
