import PanelExport.Proofs.Query.Blame
import PanelExport.Proofs.Query.Sources
import PanelExport.Proofs.Text.Position

/-!
# Where a query is wrong

The place of a fault is in the text or at its end: it is that of a token, of the end, or of what the
lexer stopped at. The message names it by a line and a column, and these lead back to the place and
to no other one.

* `grants_placed`: tokens that are in the text are blamed at places in the text.
* `pos_le_of_lexemes`, `pos_le_of_parse`: tokens and faults are in the text.
* `parse_error_placed`: what the line and the column in a message say.
-/

namespace PanelExport.Query

/-- A fault of the grammar has its place among the first characters of a text or behind them. -/
def Fault.IsWithin (length : Nat) : Fault → Prop
  | .malformed e => e.pos ≤ length
  | .number _ => True

theorem grants_placed {length : Nat} {ts : List Token} (h : ∀ t ∈ ts, t.pos ≤ length) :
    Grants (Fault.IsWithin length) length ts where
  finish _ _ := Nat.le_refl length
  tokens t ht _ _ := h t ht
  literals _ _ _ _ := trivial
  signed _ _ _ _ _ _ _ _ _ := trivial

/-- The tokens of a text are in the text. -/
theorem pos_le_of_lexemes {text : String} {ts : List Token} (h : lexemes text = .ok ts) :
    ∀ t ∈ ts, t.pos ≤ text.length := by
  obtain ⟨ps, hps, rfl⟩ := exceptMap_eq_ok.1 h
  have hlossless := lossless_of_tiles (tiles_of_piecesFrom hps)
  rw [← map_token_spansOf]
  intro t ht
  obtain ⟨s, hs, rfl⟩ := List.mem_map.1 ht
  have hwithin := Nat.le_trans (Nat.le_of_lt (hlossless.nonempty s hs)) (hlossless.within s hs)
  rwa [String.length_toList] at hwithin

/-- The place of a fault is in the text or at its end. -/
theorem pos_le_of_parse {text : String} {limit : Nat} {e : ParseError}
    (h : parse text limit = .error (.malformed e)) : e.pos ≤ text.length := by
  unfold parse at h
  split at h
  · rename_i lexError hlex
    have hpieces := piecesFrom_error_le (exceptMap_eq_error.1 hlex)
    rw [Nat.zero_add, String.length_toList] at hpieces
    cases h
    exact hpieces
  · rename_i ts hlex
    exact parseTokens_failsAmong (grants_placed (pos_le_of_lexemes hlex)) (Nat.zero_le _) limit _ h

/-- The place of a fault is in the text or at its end. The line in its message counts the newlines
before the place, and the column the characters behind the last of them, both from one. There is
such a line and column in the text, and they lead to the place itself. In one text different places
have different lines or columns, which stand in the order of the places. -/
theorem parse_error_placed {text : String} {limit : Nat} {e : ParseError}
    (h : parse text limit = .error (.malformed e)) :
    let cs := text.toList
    let place := lineColumn cs e.pos
    e.pos ≤ text.length ∧
    (e.message text = toString place.line ++ ":" ++ toString place.column ++ ": parse error: " ++
        e.cause.message ∧
      place.line = 1 + (cs.take e.pos).count '\n' ∧
      place.column = 1 + ((cs.take e.pos).rtakeWhile (· ≠ '\n')).length) ∧
    (place.IsIn cs ∧ place.offset cs = e.pos) ∧
    ∀ p q, p ≤ text.length → q ≤ text.length →
      (lineColumn cs p = lineColumn cs q → p = q) ∧
        ((lineColumn cs p).Before (lineColumn cs q) ↔ p < q) := by
  have hlength : text.toList.length = text.length := String.length_toList
  have hpos := pos_le_of_parse h
  refine ⟨hpos, ⟨rfl, lineColumn_line _ _, lineColumn_column _ _⟩, ?_, ?_⟩
  · rw [← hlength] at hpos
    exact ⟨lineColumn_isIn hpos, offset_lineColumn hpos⟩
  · rw [← hlength]
    exact fun p q hp hq => ⟨lineColumn_injOn hp hq, lineColumn_before_iff hp hq⟩

/-- An aggregation that ends on the second line without its parenthesis. -/
theorem parse_error_placed_secondLine :
    let text := "sum(\n  up"
    let e : ParseError := ⟨.unexpectedIn (.finish 9) .aggregation (.separator .rightParen), 9⟩
    let cs := text.toList
    let place := lineColumn cs e.pos
    (parse text = .error (.malformed e) ∧ place = ⟨2, 5⟩) ∧
    e.pos ≤ text.length ∧
    (e.message text = toString place.line ++ ":" ++ toString place.column ++ ": parse error: " ++
        e.cause.message ∧
      place.line = 1 + (cs.take e.pos).count '\n' ∧
      place.column = 1 + ((cs.take e.pos).rtakeWhile (· ≠ '\n')).length) ∧
    (place.IsIn cs ∧ place.offset cs = e.pos) ∧
    ∀ p q, p ≤ text.length → q ≤ text.length →
      (lineColumn cs p = lineColumn cs q → p = q) ∧
        ((lineColumn cs p).Before (lineColumn cs q) ↔ p < q) := by
  have hparse : parse "sum(\n  up" = .error (.malformed
      ⟨.unexpectedIn (.finish 9) .aggregation (.separator .rightParen), 9⟩) :=
    (exceptMap_eq_error (f := fun _ => ())).1 (by decide +kernel)
  exact ⟨⟨hparse, by decide +kernel⟩, parse_error_placed hparse⟩

end PanelExport.Query
