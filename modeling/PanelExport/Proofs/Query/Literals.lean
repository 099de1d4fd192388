import Mathlib.Data.List.Chain
import PanelExport.Proofs.Query.Operands

/-!
# The literals of a query

A number or a duration in a text is a literal. Most literals have a value, but a duration may have
too many digits and a hexadecimal number may be past the greatest double. A sign makes a double of
the literal behind it, so that one also needs a value that is no greater.

* `ValuedText`: the literals of a text have the values that they need.
* `operandWith_number`: an operand that is a number is a double, or the first token is its literal.
-/

namespace PanelExport.Query

/-! ## Literals -/

/-- The value of a token that is a number or a duration. -/
def Token.literal? (t : Token) : Option (Except NumberFault Number) :=
  if t.kind = .number ∨ t.kind = .duration then some (numberValue t.value.toList) else none

/-- A literal has a value. -/
def Token.HasValue (t : Token) : Prop :=
  ∀ value ∈ t.literal?, value.isOk = true

/-- A literal has a value that is or becomes a double. -/
def Token.HasDouble (t : Token) : Prop :=
  ∀ value ∈ t.literal?, (value >>= Number.toDouble).isOk = true

instance (t : Token) : Decidable t.HasValue := by
  unfold Token.HasValue; infer_instance

instance (t : Token) : Decidable t.HasDouble := by
  unfold Token.HasDouble; infer_instance

/-- The literals among some tokens have values, and those right behind a sign have doubles. -/
structure Valued (ts : List Token) : Prop where
  values : ∀ t ∈ ts, t.HasValue
  signed : ts.IsChain fun t u => (sign? t).isSome = true → u.HasDouble

instance (ts : List Token) : Decidable (Valued ts) :=
  decidable_of_iff ((∀ t ∈ ts, t.HasValue) ∧
    ts.IsChain fun t u => (sign? t).isSome = true → u.HasDouble)
    ⟨fun h => ⟨h.1, h.2⟩, fun h => ⟨h.values, h.signed⟩⟩

namespace Valued

variable {t : Token} {ts rest : List Token}

theorem suffix (h : Valued ts) (hs : rest <:+ ts) : Valued rest :=
  ⟨fun t ht => h.values t (hs.subset ht), h.signed.suffix hs⟩

theorem signedLiteral (h : Valued (t :: ts)) (ht : (sign? t).isSome = true) {u : Token}
    (hu : u ∈ ts.head?) {value : Number} (hv : u.literal? = some (.ok value)) :
    ∃ x, value.toDouble = .ok x := by
  obtain ⟨us, rfl⟩ := List.head?_eq_some_iff.1 hu
  exact exists_of_isOk ((List.isChain_cons_cons.1 h.signed).1 ht _ hv)

end Valued

/-- The literals of a text have values, and those right behind a sign have doubles. -/
def ValuedText (text : String) : Prop :=
  ∀ ts, lexemes text = .ok ts → Valued ts

/-! ## Operands that are numbers -/

section Numbers

variable {stop calls : Nat} {ts rest : List Token} {e : Expr}

theorem Ranged.not_number {node : Expr} (h : Ranged stop calls node ts e rest) :
    ¬ e.IsNumber := by
  cases h <;> exact id

/-- No range or modifier stands behind a number. -/
theorem Suffixed.eq_of_isNumber {node : Expr} {ms : Modifiers}
    (h : Suffixed stop calls node ms ts e rest) (he : e.IsNumber) : node = e := by
  induction h with
  | done _ => rfl
  | range _ _ range _ ih => exact absurd (ih he ▸ he) (ranged_of_reading range).not_number
  | offset _ _ _ _ ih => exact ih he
  | atSign _ _ _ _ ih => exact ih he

theorem Called.not_number {argument : Parser Expr} {function : Token}
    (h : Called stop argument function ts e rest) : ¬ e.IsNumber := by
  cases h
  exact id

theorem Aggregates.not_number {argument : Parser Expr} {pos : Nat} {op : AggregateOp}
    (h : Aggregates stop argument pos op ts e rest) : ¬ e.IsNumber := by
  obtain ⟨-, -, -, -, -, allowed⟩ := h
  obtain ⟨inner, parameter?, rfl, -⟩ := checkAggregate_eq_ok.1 allowed
  exact id

/-- A tree that is a number is a double, or the first of the tokens is its literal. -/
def NumberOf (ts : List Token) (e : Expr) : Prop :=
  ∀ pos value, e = .number pos value →
    (∃ x, value = .double x) ∨ ∃ t ∈ ts.head?, t.literal? = some (.ok value)

theorem numberOf_of_not {ts : List Token} (h : ¬ e.IsNumber) : NumberOf ts e := by
  rintro pos value rfl
  exact absurd trivial h

theorem Named.numberOf {argument : Parser Expr} {name : Token} (us : List Token)
    (h : Named stop argument name ts e rest) : NumberOf us e := by
  cases h with
  | aggregate aggregates => exact numberOf_of_not aggregates.not_number
  | call called => exact numberOf_of_not called.not_number
  | @number x =>
    rintro pos value ⟨⟩
    exact .inl ⟨x, rfl⟩
  | selector _ => exact numberOf_of_not id

theorem Primary.numberOf {nested : Nat → Parser Expr}
    (h : Primary stop nested ts e rest) : NumberOf ts e := by
  cases h with
  | @number t _ _ isNumber hasValue =>
    rintro pos value ⟨⟩
    exact .inr ⟨t, rfl, (if_pos (by simp [isNumber])).trans (congrArg some hasValue)⟩
  | named _ named => exact named.numberOf _
  | _ => exact numberOf_of_not id

/-- An operand that is a number is a double, or the first of the tokens is its literal. -/
theorem operandWith_number {operand : Parser Expr} {nested : Nat → Parser Expr}
    (h : reading (operandWith stop calls operand nested ts) = .ok (e, rest)) : NumberOf ts e := by
  cases operand_of_reading h with
  | sign _ allowed =>
    obtain ⟨-, ⟨p, v, v', -, hv, rfl⟩ | ⟨-, rfl⟩⟩ := applySign_eq_ok.1 allowed
    · rintro pos value ⟨⟩
      obtain ⟨x, -, hx⟩ := bind_eq_ok.1 hv
      exact .inl ⟨_, (Except.ok.inj hx).symm⟩
    · exact numberOf_of_not id
  | primary start suffixes =>
    rintro pos value rfl
    obtain rfl := suffixes.eq_of_isNumber trivial
    exact start.numberOf pos value rfl

end Numbers

end PanelExport.Query
