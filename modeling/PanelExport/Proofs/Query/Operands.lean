import PanelExport.Proofs.Query.Loops
import PanelExport.Proofs.Query.Rules

/-!
# The rules of an operand

An operand is a sign with an operand, or one of a few starts with the suffixes behind it. What a
parser of operands reads is written down as a relation with one rule for every way it can go, so
that a property of what is read is proved rule by rule.

* `ranged_of_reading`, `named_of_reading`, `primary_of_reading`, `operand_of_reading`: what a parser
  reads is related by its rules.
* `levels_sized`, `levels_typed`: the type of what is read takes no more calls than it has tokens,
  and no more than were open when it was read.
-/

namespace PanelExport.Query

variable {stop : Nat} {ts rest : List Token} {e : Expr}

/-! ## Selectors -/

/-- Conditions are read if their row is, and the selector that they make is well formed. -/
theorem conditions_eq_ok {pos : Nat} {name : String} {s : Selector} :
    reading (conditions stop pos name ts) = .ok (s, rest) ↔ ∃ ms,
      reading (separated stop .rightBrace .matching (matcher stop name) ts) = .ok (ms, rest) ∧
        s = ⟨pos, name, ms⟩ ∧ s.WellFormed := by
  rw [reading_conditions]
  constructor
  · intro h
    obtain ⟨⟨ms, mid⟩, hms, h⟩ := bind_eq_ok.1 h
    obtain ⟨s', hcheck, h⟩ := bind_eq_ok.1 h
    cases h
    obtain ⟨rfl, hs⟩ := checkSelector_eq_ok.1 hcheck
    exact ⟨ms, hms, rfl, hs⟩
  · rintro ⟨ms, hms, rfl, hs⟩
    rw [hms]
    simp only [bind, Except.bind, checkSelector_eq_ok.2 ⟨rfl, hs⟩]
    rfl

/-- A selector is a name, and conditions on it may follow in braces. -/
inductive Selects (stop pos : Nat) (name : String) : List Token → Selector → List Token → Prop where
  | alone {ts : List Token} (wellFormed : Selector.WellFormed ⟨pos, name, []⟩) :
      Selects stop pos name ts ⟨pos, name, []⟩ ts
  | braces {brace : Token} {s : Selector} {ts rest : List Token}
      (conditions : reading (conditions stop pos name ts) = .ok (s, rest)) :
      Selects stop pos name (brace :: ts) s rest

/-- The ways to read a selector. -/
theorem selects_of_reading {pos : Nat} {name : String} {s : Selector}
    (h : reading (selector stop pos name ts) = .ok (s, rest)) :
    Selects stop pos name ts s rest := by
  rw [reading_selector] at h
  split at h
  · obtain ⟨s', hcheck, h⟩ := bind_eq_ok.1 h
    cases h
    obtain ⟨rfl, hs⟩ := checkSelector_eq_ok.1 hcheck
    exact .alone hs
  · rename_i q hq
    obtain ⟨brace, ts', -, rfl, -, hr⟩ := exists_of_take?_eq_some hq
    rw [hr] at h
    exact .braces h

/-! ## Ranges -/

/-- A duration in brackets makes a range of a selector. With a colon and perhaps a step behind it
the brackets make a subquery of an instant vector. -/
inductive Ranged (stop calls : Nat) : Expr → List Token → Expr → List Token → Prop where
  | matrix {s : Selector} {range closing : Token} {ts mid rest : List Token}
      (duration : reading (expect stop .duration .range ts) = .ok (range, mid))
      (closes : reading (expect stop .rightBracket .matrix mid) = .ok (closing, rest)) :
      Ranged stop calls (.selector s) ts (.matrix s.pos s range.value) rest
  | subquery {node : Expr} {range colon closing : Token} {ts mid rest : List Token}
      (fits : node.typeCalls ≤ calls) (instant : node.type = .instant)
      (duration : reading (expect stop .duration .range ts) = .ok (range, colon :: mid))
      (closes : reading (expect stop .rightBracket .subquery (subqueryStep mid).rest) =
        .ok (closing, rest)) :
      Ranged stop calls node ts (.subquery node.pos node range.value (subqueryStep mid).value) rest

/-- The ways to read a range. -/
theorem ranged_of_reading {calls start : Nat} {node : Expr}
    (h : reading (range stop calls start node ts) = .ok (e, rest)) :
    Ranged stop calls node ts e rest := by
  rw [reading_range] at h
  obtain ⟨⟨range, mid⟩, hrange, h⟩ := bind_eq_ok.1 h
  simp only at h
  split at h
  · rename_i q hq
    obtain ⟨colon, ts', -, rfl, -, hr⟩ := exists_of_take?_eq_some hq
    rw [hr] at h
    obtain ⟨⟨closing, mid'⟩, hclosing, h⟩ := bind_eq_ok.1 h
    obtain ⟨type, htype, h⟩ := bind_eq_ok.1 h
    obtain ⟨hfits, rfl⟩ := Expr.typeWithin_eq_ok.1 htype
    split at h
    · rename_i hinstant
      cases h
      exact .subquery hfits hinstant hrange hclosing
    · exact absurd h fail_ne_ok
  · obtain ⟨⟨closing, mid'⟩, hclosing, h⟩ := bind_eq_ok.1 h
    simp only at h
    split at h
    · cases h
      exact .matrix hrange hclosing
    · exact absurd h fail_ne_ok

/-! ## Names -/

/-- A known function with arguments in parentheses that it accepts. -/
inductive Called (stop : Nat) (argument : Parser Expr) (function : Token) :
    List Token → Expr → List Token → Prop where
  | call {s : Signature} {opening : Token} {args : List Expr} {ts mid rest : List Token}
      (known : signature? function.value = some s)
      (opens : reading (expect stop .leftParen .call ts) = .ok (opening, mid))
      (arguments : reading (separated stop .rightParen .call argument mid) = .ok (args, rest))
      (accepts : s.Accepts (args.map Expr.type)) :
      Called stop argument function ts (.call function.pos s.name args s.returns) rest

/-- The way to read a call. -/
theorem called_of_reading {argument : Parser Expr} {function : Token}
    (h : reading (call stop argument function ts) = .ok (e, rest)) :
    Called stop argument function ts e rest := by
  rw [reading_call] at h
  split at h
  · exact absurd h fail_ne_ok
  · rename_i s hs
    obtain ⟨⟨opening, mid⟩, hopening, h⟩ := bind_eq_ok.1 h
    obtain ⟨⟨args, mid'⟩, hargs, h⟩ := bind_eq_ok.1 h
    obtain ⟨node, hcheck, h⟩ := bind_eq_ok.1 h
    cases h
    obtain ⟨rfl, haccepts⟩ := (checkCall_eq_ok (mem_signatures hs).1).1 hcheck
    exact .call hs hopening hargs haccepts

/-- What a name starts: an aggregation, a call, a number that is written as a word, or a selector. -/
inductive Named (stop : Nat) (argument : Parser Expr) (name : Token) :
    List Token → Expr → List Token → Prop where
  | aggregate {op : AggregateOp} {e : Expr} {ts rest : List Token}
      (aggregates : Aggregates stop argument name.pos op ts e rest) :
      Named stop argument name ts e rest
  | call {e : Expr} {ts rest : List Token} (called : Called stop argument name ts e rest) :
      Named stop argument name ts e rest
  | number {x : Double} {ts : List Token} :
      Named stop argument name ts (.number name.pos (.double x)) ts
  | selector {s : Selector} {ts rest : List Token}
      (selects : Selects stop name.pos name.value ts s rest) :
      Named stop argument name ts (.selector s) rest

/-- The ways to read what starts with a name. -/
theorem named_of_reading {argument : Parser Expr} {name : Token}
    (h : reading (named stop argument name ts) = .ok (e, rest)) :
    Named stop argument name ts e rest := by
  rw [reading_named] at h
  split at h
  · exact .aggregate (aggregation_iff.1 h)
  · split at h
    · exact .call (called_of_reading h)
    · split at h
      · cases h
        exact .number
      · split at h
        · exact absurd h fail_ne_ok
        · obtain ⟨⟨s, mid⟩, hs, h⟩ := bind_eq_ok.1 h
          cases h
          exact .selector (selects_of_reading hs)

/-! ## Operands -/

/-- What an operand without a sign starts with. -/
inductive Primary (stop : Nat) (nested : Nat → Parser Expr) :
    List Token → Expr → List Token → Prop where
  | number {t : Token} {value : Number} {ts : List Token}
      (isNumber : t.kind = .number ∨ t.kind = .duration)
      (hasValue : numberValue t.value.toList = .ok value) :
      Primary stop nested (t :: ts) (.number t.pos value) ts
  | text {t : Token} {ts : List Token} : Primary stop nested (t :: ts) (.text t.pos t.value) ts
  | paren {t closing : Token} {inner : Expr} {ts mid rest : List Token}
      (inside : Reads (nested 1) ts inner mid)
      (closes : reading (expect stop .rightParen .paren mid) = .ok (closing, rest)) :
      Primary stop nested (t :: ts) (.paren t.pos inner) rest
  | braces {t : Token} {s : Selector} {ts rest : List Token} (opens : t.kind = .leftBrace)
      (conditions : reading (conditions stop t.pos "" ts) = .ok (s, rest)) :
      Primary stop nested (t :: ts) (.selector s) rest
  | named {t : Token} {e : Expr} {ts rest : List Token} (isName : t.kind = .identifier)
      (named : Named stop (nested 3) t ts e rest) : Primary stop nested (t :: ts) e rest

/-- The ways to read a primary. -/
theorem primary_of_reading {nested : Nat → Parser Expr}
    (h : reading (primary stop nested ts) = .ok (e, rest)) :
    Primary stop nested ts e rest := by
  cases ts with
  | nil => exact absurd h fail_ne_ok
  | cons t ts =>
    rw [reading_primary] at h
    split at h
    case h_1 hk | h_2 hk =>
      split at h
      · rename_i hvalue
        cases h
        exact .number (by simp [hk]) hvalue
      · cases h
    · cases h
      exact .text
    · obtain ⟨⟨inner, mid⟩, hinner, h⟩ := bind_eq_ok.1 h
      obtain ⟨⟨closing, mid'⟩, hclosing, h⟩ := bind_eq_ok.1 h
      cases h
      exact .paren hinner hclosing
    · rename_i hopens
      obtain ⟨⟨s, mid⟩, hs, h⟩ := bind_eq_ok.1 h
      cases h
      exact .braces hopens hs
    · rename_i hname
      exact .named hname (named_of_reading h)
    · exact absurd h fail_ne_ok

/-- A sign with an operand, or a start with the suffixes behind it. -/
inductive Operand (stop calls : Nat) (operand : Parser Expr) (nested : Nat → Parser Expr) :
    List Token → Expr → List Token → Prop where
  | sign {t : Token} {sign : Sign} {inner e : Expr} {ts rest : List Token}
      (signed : Reads operand ts inner rest) (allowed : applySign t.pos sign inner = .ok e) :
      Operand stop calls operand nested (t :: ts) e rest
  | primary {node e : Expr} {ts mid rest : List Token}
      (start : Primary stop nested ts node mid)
      (suffixes : Suffixed stop (calls - 1) node .none mid e rest) :
      Operand stop calls operand nested ts e rest

/-- The ways to read an operand. -/
theorem operand_of_reading {calls : Nat} {operand : Parser Expr} {nested : Nat → Parser Expr}
    (h : reading (operandWith stop calls operand nested ts) = .ok (e, rest)) :
    Operand stop calls operand nested ts e rest := by
  rw [reading_operandWith] at h
  split at h
  · rename_i q hq
    obtain ⟨t, ts', -, rfl, hv, hr⟩ := exists_of_take?_eq_some hq
    obtain ⟨⟨inner, mid⟩, hinner, h⟩ := bind_eq_ok.1 h
    obtain ⟨node, hsign, h⟩ := bind_eq_ok.1 h
    cases h
    rw [hr] at hinner
    rw [hv] at hsign
    exact .sign hinner hsign
  · obtain ⟨⟨node, mid⟩, hnode, h⟩ := bind_eq_ok.1 h
    exact .primary (primary_of_reading hnode) (suffixes_iff.1 h)

/-! ## The calls for a type -/

/-- The type of a range or a subquery is known without that of its node. -/
theorem Ranged.typeCalls_eq {calls : Nat} {node : Expr} (h : Ranged stop calls node ts e rest) :
    e.typeCalls = 1 := by
  cases h <;> rfl

/-- Suffixes add no calls to those for the type. -/
theorem Suffixed.typeCalls_le {calls : Nat} {node : Expr} {ms : Modifiers}
    (h : Suffixed stop calls node ms ts e rest) :
    e.typeCalls ≤ node.typeCalls ∧ rest.length ≤ ts.length := by
  induction h with
  | done _ => exact ⟨Nat.le_refl _, Nat.le_refl _⟩
  | @range node inner e ms bracket ts mid rest opens allowed range outer ih =>
    have hinner := (ranged_of_reading range).typeCalls_eq
    have hmid := length_lt_of_reading range
    have hnode := node.typeCalls_pos
    simp only [List.length_cons]
    omega
  | offset _ _ amount _ ih =>
    have hmid := length_lt_of_reading amount
    simp only [List.length_cons]
    omega
  | atSign _ _ time _ ih =>
    have hmid := length_lt_of_reading time
    simp only [List.length_cons]
    omega

theorem Named.typeCalls_eq {argument : Parser Expr} {name : Token}
    (h : Named stop argument name ts e rest) : e.typeCalls = 1 := by
  cases h with
  | aggregate aggregates =>
    obtain ⟨-, -, -, -, -, allowed⟩ := aggregates
    obtain ⟨_, _, rfl, -⟩ := checkAggregate_eq_ok.1 allowed
    rfl
  | call called =>
    cases called
    rfl
  | _ => rfl

/-- Only of an expression in parentheses is the type looked for further in. -/
theorem Primary.typeCalls_eq {nested : Nat → Parser Expr} (h : Primary stop nested ts e rest) :
    e.typeCalls = 1 ∨ ∃ inner mid, Reads (nested 1) ts.tail inner mid ∧
      e.typeCalls = inner.typeCalls + 1 ∧ rest.length < mid.length := by
  cases h with
  | paren inside closes => exact .inr ⟨_, _, inside, rfl, length_lt_of_reading closes⟩
  | named _ named => exact .inl named.typeCalls_eq
  | _ => exact .inl rfl

/-- A sign looks for the type of its operand, if it does not make a number of it. -/
theorem typeCalls_le_of_applySign {pos : Nat} {sign : Sign} {node : Expr}
    (h : applySign pos sign e = .ok node) : node.typeCalls ≤ e.typeCalls + 1 := by
  obtain ⟨-, ⟨_, _, _, -, -, rfl⟩ | ⟨-, rfl⟩⟩ := applySign_eq_ok.1 h
  · exact Nat.le_add_left 1 _
  · exact Nat.le_refl _

/-- The type of an operation takes one call more than those of its operands. -/
theorem typeCalls_le_of_checkBinary {calls pos : Nat} {op : BinaryOp} {lhs rhs node : Expr}
    {returnBool : Bool} (h : checkBinary calls pos op lhs rhs returnBool = .ok node) :
    node.typeCalls ≤ max lhs.typeCalls rhs.typeCalls + 1 := by
  rw [(checkBinary_eq_ok.1 h).1]
  exact Expr.typeCalls_binary_le ..

/-- The type of what a parser reads takes no more calls than what it reads has tokens. -/
def Sized (p : Parser Expr) : Prop :=
  ∀ ts e rest, Reads p ts e rest → e.typeCalls + rest.length ≤ ts.length

theorem sized_fail {cause : ParseCause} {pos : Nat} : Sized fun _ => fail cause pos :=
  fun _ _ _ h => absurd h fail_ne_ok

theorem sized_primary {nested : Nat → Parser Expr} (hn : Sized (nested 1)) :
    Sized (primary stop nested) := by
  intro ts e rest h
  have hrest : rest.length < ts.length := length_lt_of_reading h
  obtain hone | ⟨inner, mid, inside, hparen, hclosing⟩ := (primary_of_reading h).typeCalls_eq
  · omega
  · have hinner := hn _ _ _ inside
    simp only [List.length_tail] at hinner
    omega

/-- The type of an operand takes no more calls than the operand has tokens. -/
theorem sized_operandWith {calls : Nat} {operand : Parser Expr} {nested : Nat → Parser Expr}
    (ho : Sized operand) (hn : Sized (nested 1)) :
    Sized (operandWith stop calls operand nested) := by
  intro ts e rest h
  rw [Reads, reading_operandWith] at h
  split at h
  · rename_i sign hsign
    obtain ⟨⟨inner, mid⟩, hinner, h⟩ := bind_eq_ok.1 h
    obtain ⟨node, allowed, h⟩ := bind_eq_ok.1 h
    cases h
    have hsize := ho _ _ _ hinner
    have hnode := typeCalls_le_of_applySign allowed
    have hshorter := sign.shorter
    omega
  · obtain ⟨⟨node, mid⟩, hnode, h⟩ := bind_eq_ok.1 h
    have hsize := sized_primary hn _ _ _ hnode
    obtain ⟨he, hrest⟩ := (suffixes_iff.1 h).typeCalls_le
    omega

/-- Each operator adds a token and at most one call for the type. -/
theorem Climbs.sized {calls level : Nat} {expression : Nat → Parser Expr} {lhs : Expr}
    (he : ∀ level, Sized (expression level)) (h : Climbs stop calls expression level lhs ts e rest) :
    e.typeCalls + rest.length ≤ lhs.typeCalls + ts.length := by
  induction h with
  | done _ => exact Nat.le_refl _
  | step _ _ modifier matching operand allowed _ ih =>
    have hbool := length_lt_of_reading modifier
    have hmatching := length_lt_of_reading matching
    have hrhs := he _ _ _ _ operand
    have hnode := typeCalls_le_of_checkBinary allowed
    simp only [List.length_cons]
    omega

/-- The type of what is read takes no more calls than what is read has tokens. -/
theorem levels_sized (stop calls : Nat) :
    Sized (operand stop calls) ∧ ∀ level, Sized (expression stop calls level) := by
  refine levels_induction ⟨sized_fail, fun _ => sized_fail⟩ (fun calls o nested ho hn => ?_)
    (fun calls o e ho he level => ?_) calls
  · exact sized_operandWith ho (hn 1)
  · intro ts e rest h
    rw [Reads, reading_expressionWith] at h
    obtain ⟨⟨lhs, mid⟩, hlhs, h⟩ := bind_eq_ok.1 h
    exact Nat.le_trans ((climb_iff.1 h).sized he) (ho _ _ _ hlhs)

/-- The type of operands that were climbed takes no more calls than could be open. -/
theorem Climbs.typeCalls_le {calls level : Nat} {expression : Nat → Parser Expr} {lhs : Expr}
    (h : Climbs stop calls expression level lhs ts e rest) :
    e.typeCalls ≤ max lhs.typeCalls calls := by
  induction h with
  | done _ => exact Nat.le_max_left _ _
  | @step lhs _ _ _ _ _ _ _ _ _ _ _ _ _ _ _ _ allowed _ ih =>
    obtain ⟨-, -, hlhs, hrhs⟩ := checkBinary_eq_ok.1 allowed
    have hnode := typeCalls_le_of_checkBinary allowed
    have hpos := lhs.typeCalls_pos
    omega

/-- The type of what is read takes no more calls than could be open when it was read, which is why
the checks of arguments and of signs need not count them. -/
theorem levels_typed (stop calls : Nat) :
    (∀ ts e rest, Reads (operand stop calls) ts e rest → e.typeCalls ≤ calls) ∧
      ∀ level ts e rest, Reads (expression stop calls level) ts e rest → e.typeCalls ≤ calls := by
  induction calls using Nat.strongRecOn with
  | ind calls ih =>
    cases calls with
    | zero =>
      simp only [Reads, operand_zero, expression_zero]
      exact ⟨fun _ _ _ h => absurd h fail_ne_ok, fun _ _ _ _ h => absurd h fail_ne_ok⟩
    | succ calls =>
      obtain ⟨iho, -⟩ := ih calls (Nat.lt_succ_self calls)
      refine ⟨fun ts e rest h => ?_, fun level ts e rest h => ?_⟩
      · rw [Reads, operand] at h
        cases operand_of_reading h with
        | sign signed allowed =>
          exact Nat.le_trans (typeCalls_le_of_applySign allowed)
            (Nat.succ_le_succ (iho _ _ _ signed))
        | primary start suffixes =>
          obtain ⟨hnode, -⟩ := suffixes.typeCalls_le
          obtain hone | ⟨inner, mid, inside, hparen, -⟩ := start.typeCalls_eq
          · omega
          · have hinner := (ih (calls - 1) (by omega)).2 0 _ _ _ inside
            have hpos := inner.typeCalls_pos
            omega
      · rw [Reads, expression, reading_expressionWith] at h
        obtain ⟨⟨lhs, mid⟩, hlhs, h⟩ := bind_eq_ok.1 h
        have hnode := (climb_iff.1 h).typeCalls_le
        have := iho _ _ _ hlhs
        omega

end PanelExport.Query
