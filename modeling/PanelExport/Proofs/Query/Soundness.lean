import PanelExport.Proofs.Query.Operands

/-!
# Parsed trees obey the rules

Every node that a parser builds has passed its checks, and an operator stands below another one only
where the climb over the operators put it. One lemma for every parser says so of what it reads,
given that the parsers of the level below do; the trees of a text follow by induction on the depth.

* `Climbs.sound`: what holds of the left operand holds after every turn of the climb.
* `parse_sound`: every node of the tree of a text obeys the rules.
* `parse_wellTyped`: every node of the tree of a text obeys the rules about types.
-/

namespace PanelExport.Query

namespace Expr

/-- Every node obeys the rules. -/
def Sound (e : Expr) : Prop := e.All fun n => n.WellTyped ∧ n.Grouped

/-- A tree is sound if its root is and all trees below are. -/
theorem sound_iff {e : Expr} :
    e.Sound ↔ (e.WellTyped ∧ e.Grouped) ∧ ∀ c ∈ e.children, c.Sound :=
  all_iff

/-- A sound tree without an operator at its root, as an operand has to be. -/
def SoundOperand (e : Expr) : Prop := e.Sound ∧ e.rootOp? = none

/-- A sound tree whose operator binds at least as tightly as a level. -/
def SoundAt (level : Nat) (e : Expr) : Prop :=
  e.Sound ∧ ∀ op ∈ e.rootOp?, level ≤ op.precedence

end Expr

/-- What holds of every item that is read holds of all items of a row. -/
theorem Separated.forall_mem {α : Type} {R : List Token → α → List Token → Prop} {close : Kind}
    {P : α → Prop} (hP : ∀ ts a rest, R ts a rest → P a) {ts rest : List Token} {as : List α}
    (h : Separated R close ts as rest) : ∀ a ∈ as, P a := by
  induction h with
  | closed _ => exact nofun
  | last _ first _ => simpa using hP _ _ _ first
  | more _ first _ _ ih => simpa using ⟨hP _ _ _ first, ih⟩

/-! ## Operands -/

section

variable {stop calls : Nat} {ts rest : List Token}

/-- A selector with conditions that is read is well formed. -/
theorem conditions_wellFormed {pos : Nat} {name : String} {s : Selector}
    (h : reading (conditions stop pos name ts) = .ok (s, rest)) : s.WellFormed := by
  obtain ⟨_, -, -, hs⟩ := conditions_eq_ok.1 h
  exact hs

theorem Selects.wellFormed {pos : Nat} {name : String} {s : Selector}
    (h : Selects stop pos name ts s rest) : s.WellFormed := by
  cases h with
  | alone wellFormed => exact wellFormed
  | braces conditions => exact conditions_wellFormed conditions

/-- A tree without a tree below it that obeys the rules is a sound operand. -/
theorem soundOperand_leaf {e : Expr} (h : e.WellTyped ∧ e.Grouped) (hc : e.children = [])
    (hr : e.rootOp? = none) : e.SoundOperand :=
  ⟨Expr.sound_iff.2 ⟨h, by simp [hc]⟩, hr⟩

theorem soundOperand_selector {s : Selector} (h : s.WellFormed) :
    (Expr.selector s).SoundOperand :=
  soundOperand_leaf ⟨h, trivial⟩ rfl rfl

/-- A range of what is sound is sound, and a primary of its own. -/
theorem Ranged.sound {node e : Expr} (h : Ranged stop calls node ts e rest) (hn : node.Sound) :
    e.SoundOperand := by
  cases h with
  | matrix _ _ =>
    have hs := (Expr.sound_iff.1 hn).1.1
    refine ⟨Expr.sound_iff.2 ⟨⟨hs, trivial⟩, ?_⟩, rfl⟩
    simpa [Expr.children] using hn
  | subquery _ instant _ _ =>
    refine ⟨Expr.sound_iff.2 ⟨⟨instant, trivial⟩, ?_⟩, rfl⟩
    simpa [Expr.children] using hn

/-- Suffixes leave a sound operand sound. -/
theorem Suffixed.sound {node e : Expr} {ms : Modifiers}
    (h : Suffixed stop calls node ms ts e rest) (hn : node.SoundOperand) : e.SoundOperand := by
  induction h with
  | done _ => exact hn
  | range _ _ range _ ih => exact ih ((ranged_of_reading range).sound hn.1)
  | offset _ _ _ _ ih => exact ih hn
  | atSign _ _ _ _ ih => exact ih hn

/-- A parser of arguments reads sound trees. -/
def SoundParser (p : Parser Expr) : Prop := ∀ ts e rest, Reads p ts e rest → e.Sound

/-- A call of sound arguments that passes its rules is sound. -/
theorem Called.sound {argument : Parser Expr} {function : Token} {e : Expr}
    (h : Called stop argument function ts e rest) (ha : SoundParser argument) :
    e.SoundOperand := by
  cases h with
  | @call s _ _ _ _ _ known _ arguments accepts =>
    have hname := (mem_signatures known).2
    refine ⟨Expr.sound_iff.2 ⟨⟨⟨s, hname ▸ known, accepts, rfl⟩, trivial⟩, ?_⟩, rfl⟩
    exact ((separated_iff (by decide)).1 arguments).forall_mem ha

/-- An aggregation of a sound argument that passes its rules is sound. -/
theorem Aggregates.sound {argument : Parser Expr} {pos : Nat} {op : AggregateOp} {e : Expr}
    (h : Aggregates stop argument pos op ts e rest) (ha : SoundParser argument) :
    e.SoundOperand := by
  obtain ⟨-, -, hargs, -, -, hc⟩ := h
  obtain ⟨inner, parameter?, rfl, rfl, ht, hp⟩ := checkAggregate_eq_ok.1 hc
  refine ⟨Expr.sound_iff.2 ⟨⟨⟨ht, hp⟩, trivial⟩, ?_⟩, rfl⟩
  exact ((separated_iff (by decide)).1 hargs).forall_mem ha

theorem Named.sound {argument : Parser Expr} {name : Token} {e : Expr}
    (h : Named stop argument name ts e rest) (ha : SoundParser argument) : e.SoundOperand := by
  cases h with
  | aggregate aggregates => exact aggregates.sound ha
  | call called => exact called.sound ha
  | number => exact soundOperand_leaf ⟨trivial, trivial⟩ rfl rfl
  | selector selects => exact soundOperand_selector selects.wellFormed

/-- A primary is sound if what nests in it is. -/
theorem Primary.sound {nested : Nat → Parser Expr} {e : Expr}
    (h : Primary stop nested ts e rest) (hn : ∀ between, SoundParser (nested between)) :
    e.SoundOperand := by
  cases h with
  | number _ _ => exact soundOperand_leaf ⟨trivial, trivial⟩ rfl rfl
  | text => exact soundOperand_leaf ⟨trivial, trivial⟩ rfl rfl
  | paren inside _ =>
    refine ⟨Expr.sound_iff.2 ⟨⟨trivial, trivial⟩, ?_⟩, rfl⟩
    simpa [Expr.children] using hn 1 _ _ _ inside
  | braces _ conditions => exact soundOperand_selector (conditions_wellFormed conditions)
  | named _ named => exact named.sound (hn 3)

/-- An operand is sound if what nests in it is. -/
theorem operandWith_sound {operand : Parser Expr} {nested : Nat → Parser Expr}
    (ho : ∀ ts e rest, Reads operand ts e rest → e.SoundOperand)
    (hn : ∀ between, SoundParser (nested between)) {e : Expr}
    (h : reading (operandWith stop calls operand nested ts) = .ok (e, rest)) : e.SoundOperand := by
  cases operand_of_reading h with
  | sign signed allowed =>
    obtain ⟨hs, hr⟩ := ho _ _ _ signed
    obtain ⟨ht, ⟨p, v, v', rfl, -, rfl⟩ | ⟨hnum, rfl⟩⟩ := applySign_eq_ok.1 allowed
    · exact soundOperand_leaf ⟨trivial, trivial⟩ rfl rfl
    · refine ⟨Expr.sound_iff.2 ⟨⟨⟨ht, hnum⟩, hr⟩, ?_⟩, rfl⟩
      simpa [Expr.children] using hs
  | primary start suffixes => exact suffixes.sound (start.sound hn)

/-! ## Operators -/

/-- Only a comparison has a modifier that makes its result a number. -/
theorem boolModifier_comparison {op : BinaryOp} {returnBool : Bool}
    (h : reading (boolModifier op ts) = .ok (returnBool, rest)) (hb : returnBool = true) :
    op.isComparison = true := by
  obtain ⟨p, hp, rfl, -⟩ := reading_eq_ok.1 h
  unfold boolModifier at hp
  split at hp
  · cases hp
    cases hb
  · split at hp
    · assumption
    · exact absurd hp fail_ne_ok

/-- What holds of the left operand holds after every turn of the climb: it is sound, its operator
binds at least as tightly as the level, and the next operator does not belong to its right
operand. -/
theorem Climbs.sound {expression : Nat → Parser Expr} {level : Nat}
    (he : ∀ level ts e rest, Reads (expression level) ts e rest →
      e.SoundAt level ∧ ∀ op ∈ nextOp? rest, op.precedence < level)
    {lhs e : Expr} (h : Climbs stop calls expression level lhs ts e rest)
    (hl : lhs.SoundAt level)
    (hn : ∀ inner ∈ lhs.rootOp?, ∀ op ∈ nextOp? ts, op.precedence < inner.rightLevel) :
    e.SoundAt level ∧ ∀ op ∈ nextOp? rest, op.precedence < level := by
  induction h with
  | done ends => exact ⟨hl, ends⟩
  | @step lhs rhs node e t op returnBool ts ts₁ ts₂ ts₃ rest operator binds modifier matching
      operand allowed outer ih =>
    obtain ⟨⟨hrs, hrl⟩, hnext⟩ := he _ _ _ _ operand
    obtain ⟨rfl, haccepts, -⟩ := checkBinary_eq_ok.1 allowed
    have hleft : ∀ inner ∈ lhs.rootOp?, op.AllowsLeft inner := fun inner hi =>
      BinaryOp.allowsLeft_iff.2 (hn inner hi op (by simpa [nextOp?] using operator))
    have hright : ∀ inner ∈ rhs.rootOp?, op.AllowsRight inner := fun inner hi =>
      BinaryOp.allowsRight_iff.2 (hrl inner hi)
    apply ih
    · refine ⟨Expr.sound_iff.2 ⟨⟨⟨haccepts, boolModifier_comparison modifier⟩, hleft, hright⟩, ?_⟩,
        by simpa [Expr.rootOp?] using binds⟩
      simpa [Expr.children] using ⟨hl.1, hrs⟩
    · intro inner hi
      cases hi
      exact hnext

/-- An expression is sound if its operands are, and no operator is left that binds as tightly. -/
theorem expressionWith_sound {operand : Parser Expr} {expression : Nat → Parser Expr}
    (ho : ∀ ts e rest, Reads operand ts e rest → e.SoundOperand)
    (he : ∀ level ts e rest, Reads (expression level) ts e rest →
      e.SoundAt level ∧ ∀ op ∈ nextOp? rest, op.precedence < level)
    {level : Nat} {e : Expr}
    (h : reading (expressionWith stop calls operand expression level ts) = .ok (e, rest)) :
    e.SoundAt level ∧ ∀ op ∈ nextOp? rest, op.precedence < level := by
  rw [reading_expressionWith] at h
  obtain ⟨⟨lhs, mid⟩, hl, h⟩ := bind_eq_ok.1 h
  obtain ⟨hs, hr⟩ := ho _ _ _ hl
  exact (climb_iff.1 h).sound he ⟨hs, by simp [hr]⟩ (by simp [hr])

end

/-! ## Texts -/

/-- What the two recursive parsers read within every limit. -/
theorem levels_sound (stop calls : Nat) :
    (∀ ts e rest, Reads (operand stop calls) ts e rest → e.SoundOperand) ∧
      ∀ level ts e rest, Reads (expression stop calls level) ts e rest →
        e.SoundAt level ∧ ∀ op ∈ nextOp? rest, op.precedence < level := by
  refine @levels_induction stop (fun p => ∀ ts e rest, Reads p ts e rest → e.SoundOperand)
    (fun level p => ∀ ts e rest, Reads p ts e rest →
      e.SoundAt level ∧ ∀ op ∈ nextOp? rest, op.precedence < level) ⟨?_, fun _ => ?_⟩ ?_ ?_ calls
  · exact fun ts e rest h => absurd h fail_ne_ok
  · exact fun ts e rest h => absurd h fail_ne_ok
  · exact fun _ o n ho hn ts node rest h =>
      operandWith_sound ho (fun between ts e rest h => (hn between ts e rest h).1.1) h
  · exact fun _ o e ho he level ts node rest h => expressionWith_sound ho he h

/-- The expression that some tokens are is sound, whatever the limit is. -/
theorem parseTokens_sound {stop limit : Nat} {ts : List Token} {e : Expr}
    (h : parseTokens stop ts limit = .ok e) : e.Sound :=
  ((levels_sound stop limit).2 0 ts e [] (parseTokens_eq_ok.1 h)).1.1

/-- Every node of the tree of a text obeys the rules, those about types and those about operators. -/
theorem parse_sound {text : String} {limit : Nat} {e : Expr} (h : parse text limit = .ok e) :
    e.Sound := by
  unfold parse at h
  split at h
  · exact absurd h fail_ne_ok
  · exact parseTokens_sound h

/-- Every node of the tree of a text obeys the rules about types, whatever the limit. -/
theorem parse_wellTyped {text : String} {limit : Nat} {e : Expr} (h : parse text limit = .ok e) :
    ∀ n ∈ e.listing, n.WellTyped :=
  fun n hn => (parse_sound h n hn).1

theorem parse_wellTyped_topk :
    ∃ e, parse "topk by (job) (3, rate(up[5m])) > bool -2 ^ time()" = .ok e ∧
      ∀ n ∈ e.listing, n.WellTyped := by
  have ⟨e, he⟩ : ∃ e, parse "topk by (job) (3, rate(up[5m])) > bool -2 ^ time()" = .ok e :=
    exists_of_isOk (by decide +kernel)
  exact ⟨e, he, parse_wellTyped he⟩

end PanelExport.Query
