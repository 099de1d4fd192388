import PanelExport.Proofs.Query.Blame

/-!
# The faults of a query

A text that is no query is malformed, and its fault says where. The one other way to fail is a
literal without a value. So where the literals have the values that they need, every fault that a
parser ends with is one of the grammar.

* `Valued.grants`: literals with their values are not blamed.
* `parse_onlyMalformed`: the faults of a text whose literals have the values that they need.
* `parse_of_first_literal`: the fault of a text that starts with a literal without a value.
-/

namespace PanelExport.Query

/-- Whatever the fault is, it is one of the grammar. -/
def OnlyMalformed {α : Type} (x : Except Fault α) : Prop :=
  ∀ fault, x ≠ .error (.number fault)

theorem onlyMalformed_fail {α : Type} (cause : ParseCause) (pos : Nat) :
    OnlyMalformed (fail cause pos : Except Fault α) := nofun

theorem onlyMalformed_ok {α : Type} (a : α) : OnlyMalformed (.ok a) := nofun

/-- A fault of the grammar. -/
def Fault.IsMalformed : Fault → Prop
  | .malformed _ => True
  | .number _ => False

theorem onlyMalformed_of_failsAmong {α : Type} {x : Except Fault α}
    (h : FailsAmong Fault.IsMalformed x) : OnlyMalformed x :=
  fun fault hx => h (.number fault) hx

/-- Literals with the values that they need are not blamed. -/
theorem Valued.grants {ts : List Token} (h : Valued ts) (stop : Nat) :
    Grants Fault.IsMalformed stop ts where
  finish _ _ := trivial
  tokens _ _ _ _ := trivial
  literals t ht _ hliteral := by
    have hvalue := h.values t ht _ hliteral
    cases hvalue
  signed _ u us hs ht value fault hliteral hfault := by
    obtain ⟨x, hx⟩ := (h.suffix hs).signedLiteral ht (List.head?_cons (a := u) (l := us)) hliteral
    cases hfault.symm.trans hx

theorem parseTokens_onlyMalformed {stop : Nat} {ts : List Token} (h : Valued ts) (limit : Nat) :
    OnlyMalformed (parseTokens stop ts limit) :=
  onlyMalformed_of_failsAmong (parseTokens_failsAmong (h.grants stop) trivial limit)

/-- If the literals of a text have their values, every fault of the text is one of the grammar. -/
theorem parse_onlyMalformed {text : String} (h : ValuedText text) (limit : Nat) :
    OnlyMalformed (parse text limit) := by
  unfold parse
  split
  · exact onlyMalformed_fail _ _
  · rename_i ts hts
    exact parseTokens_onlyMalformed (h ts hts) limit

/-- A text that starts with a literal without a value fails for the number's sake, whatever
follows, if an operand may be read at all. -/
theorem parse_of_first_literal {text : String} {t : Token} {ts : List Token} {fault : NumberFault}
    (h : lexemes text = .ok (t :: ts)) (ht : t.literal? = some (.error fault)) {limit : Nat}
    (hlimit : 2 ≤ limit) : parse text limit = .error (.number fault) := by
  obtain ⟨calls, rfl⟩ := Nat.exists_eq_add_of_le' hlimit
  unfold Token.literal? at ht
  split at ht
  · rename_i hk
    have hvalue : numberValue t.value.toList = .error fault := Option.some.inj ht
    have hsign : take? (fun t => (sign? t).isSome) (t :: ts) = none :=
      take?_eq_none_iff.2 (by rcases hk with hk | hk <;> simp [sign?, hk])
    have hread : reading (expression text.length (calls + 2) 0 (t :: ts)) =
        .error (.number fault) := by
      rw [expression, reading_expressionWith, operand, reading_operandWith, hsign, reading_primary]
      rcases hk with hk | hk <;> simp only [hk, hvalue] <;> rfl
    rw [parse, h]
    simp only [parseTokens, List.isEmpty_cons, reading_eq_error.1 hread]
    rfl
  · cases ht

end PanelExport.Query
