import PanelExport.Proofs.Query.Loops
import PanelExport.Proofs.Query.Types

/-!
# Ranges and modifiers in a row

Behind a node stands a row of suffixes: ranges, subqueries, offsets and times behind an at sign. The
parser goes through the row with the node that the suffixes have made so far and the modifiers that
stand behind it. What it accepts is said here of the row as a whole: what the node before every
suffix is, and that no modifier stands twice without a range or a subquery in between.

* `Suffix.Begins`: how the tokens of a suffix look.
* `suffixed_iff`: the parser takes a row of suffixes each of which is allowed where it stands.
* `areAllowed_iff_arePlaced`: the suffixes are allowed if they are in their right places.
* `suffixes_placed`: the parser reads the longest row there is, if its suffixes are in their places.
-/

namespace PanelExport.Query

/-! ## Suffixes -/

/-- What may stand behind a node. -/
inductive Suffix where
  | range (duration : String)
  | subquery (duration : String) (step? : Option String)
  | modifier (m : Modifier)
  deriving DecidableEq

namespace Suffix

/-- An offset or a time. -/
def isModifier : Suffix → Bool
  | .range _ => false
  | .subquery _ _ => false
  | .modifier _ => true

/-- The node that a suffix makes of the one before it. Modifiers leave no trace, and a range has
nothing to say about what is no selector. -/
def wrap (node : Expr) : Suffix → Expr
  | .range duration =>
    match node with
    | .selector s => .matrix s.pos s duration
    | _ => node
  | .subquery duration step? => .subquery node.pos node duration step?
  | .modifier _ => node

/-- Tokens that begin with a suffix, and the tokens behind it. -/
inductive Begins : Suffix → List Token → List Token → Prop where
  | range {opening duration closing : Token} {rest : List Token}
      (opens : opening.kind = .leftBracket) (lasts : duration.kind = .duration)
      (closes : closing.kind = .rightBracket) :
      Begins (.range duration.value) (opening :: duration :: closing :: rest) rest
  | subquery {opening duration colon closing : Token} {step? : Option Token} {rest : List Token}
      (opens : opening.kind = .leftBracket) (lasts : duration.kind = .duration)
      (divides : colon.kind = .colon) (steps : ∀ step ∈ step?, step.kind = .duration)
      (closes : closing.kind = .rightBracket) :
      Begins (.subquery duration.value (step?.map Token.value))
        (opening :: duration :: colon :: (step?.toList ++ closing :: rest)) rest
  | offset {word amount : Token} {signed? : Option Token} {rest : List Token}
      (isOffset : word.isWord ["offset"] = true) (isSign : ∀ t ∈ signed?, (sign? t).isSome = true)
      (lasts : amount.kind = .duration) :
      Begins (.modifier .offset) (word :: (signed?.toList ++ amount :: rest)) rest
  | time {mark number : Token} {signed? : Option Token} {rest : List Token}
      (isAt : mark.kind = .atSign) (isSign : ∀ t ∈ signed?, (sign? t).isSome = true)
      (isNumber : number.kind = .number) :
      Begins (.modifier .atSign) (mark :: (signed?.toList ++ number :: rest)) rest
  | endpoint {mark word opening closing : Token} {rest : List Token} (isAt : mark.kind = .atSign)
      (isEnd : word.isWord ["start", "end"] = true) (opens : opening.kind = .leftParen)
      (closes : closing.kind = .rightParen) :
      Begins (.modifier .atSign) (mark :: word :: opening :: closing :: rest) rest

end Suffix

/-- Tokens that begin with suffixes in a row, and the tokens behind them. -/
inductive SuffixRow : List Token → List Suffix → List Token → Prop where
  | nil (ts : List Token) : SuffixRow ts [] ts
  | cons {s : Suffix} {ss : List Suffix} {ts mid rest : List Token} (first : s.Begins ts mid)
      (others : SuffixRow mid ss rest) : SuffixRow ts (s :: ss) rest

/-- A row that every other row is the front of. -/
structure IsLongestRow (ts : List Token) (ss : List Suffix) (rest : List Token) : Prop where
  row : SuffixRow ts ss rest
  longest : ∀ ss' rest', SuffixRow ts ss' rest' → ss' <+: ss

/-! ## Places -/

/-- A node that modifiers may stand behind. -/
def Expr.TakesModifiers : Expr → Prop
  | .selector _ | .matrix _ _ _ | .subquery _ _ _ _ => True
  | _ => False

instance (e : Expr) : Decidable e.TakesModifiers :=
  match e with
  | .selector _ | .matrix _ _ _ | .subquery _ _ _ _ => .isTrue trivial
  | .number _ _ | .text _ _ | .call _ _ _ _ | .aggregate _ _ _ _ _ | .binary _ _ _ _ _
  | .unary _ _ _ | .paren _ _ => .isFalse id

/-- Suffixes in their right places behind a node: modifiers stand behind selectors, ranges and
subqueries, and none stands there twice in a row of modifiers; a range stands behind a selector
without modifiers, and a subquery behind what has an instant vector as its value. -/
structure ArePlaced (node : Expr) (ss : List Suffix) : Prop where
  modifier : ∀ before m after, ss = before ++ .modifier m :: after →
    (before.foldl Suffix.wrap node).TakesModifiers
  once : ∀ before modifiers after m, ss = before ++ modifiers ++ after →
    (∀ s ∈ modifiers, s.isModifier = true) → modifiers.count (.modifier m) ≤ 1
  range : ∀ before duration after, ss = before ++ .range duration :: after →
    (∃ s, before.foldl Suffix.wrap node = .selector s) ∧ ∀ s ∈ before, s.isModifier = false
  subquery : ∀ before duration step? after, ss = before ++ .subquery duration step? :: after →
    (before.foldl Suffix.wrap node).type = .instant

/-! ## Tokens -/

variable {stop calls : Nat} {ts mid rest : List Token} {s : Suffix} {ss : List Suffix}

theorem Suffix.Begins.head (h : s.Begins ts rest) : ∃ t ∈ ts.head?, t.isSuffix = true := by
  cases h with
  | range opens _ _ => exact ⟨_, rfl, by simp [Token.isSuffix, opens]⟩
  | subquery opens _ _ _ _ => exact ⟨_, rfl, by simp [Token.isSuffix, opens]⟩
  | offset isOffset _ _ => exact ⟨_, rfl, by simp [Token.isSuffix, isOffset]⟩
  | time isAt _ _ => exact ⟨_, rfl, by simp [Token.isSuffix, isAt]⟩
  | endpoint isAt _ _ _ => exact ⟨_, rfl, by simp [Token.isSuffix, isAt]⟩

theorem Suffix.Begins.length_lt (h : s.Begins ts rest) : rest.length < ts.length := by
  cases h <;> simp only [List.length_cons, List.length_append] <;> omega

/-! ## Modifiers -/

theorem kind_of_sign {t : Token} (h : (sign? t).isSome = true) : t.kind = .operator :=
  Decidable.byContradiction fun hk => by simp [sign?, hk] at h

/-- What stands behind a sign that may be missing. -/
theorem rest_behind_sign {signed? : Option Token} {t : Token}
    (hs : ∀ t ∈ signed?, (sign? t).isSome = true) (ht : t.kind ≠ .operator) (rest : List Token) :
    ((take? (fun t => (sign? t).isSome) (signed?.toList ++ t :: rest)).map (·.rest)).getD
      (signed?.toList ++ t :: rest) = t :: rest := by
  have hplain : (sign? t).isSome = false := by simp [sign?, ht]
  cases signed? with
  | none =>
    have hnone : take? (fun t => (sign? t).isSome) (t :: rest) = none :=
      take?_eq_none_iff.2 (by simpa using hplain)
    simp [hnone]
  | some sign =>
    have hsome : take? (fun t => (sign? t).isSome) (sign :: t :: rest) =
      some ⟨sign, t :: rest, Nat.lt_succ_self _⟩ := take?_eq_some (hs sign rfl)
    simp [hsome]

theorem reading_offset_iff {word : Token} (hw : word.isWord ["offset"] = true) :
    reading (offset stop ts) = .ok ((), rest) ↔
      (Suffix.modifier .offset).Begins (word :: ts) rest := by
  rw [reading_offset]
  constructor
  · intro h
    obtain ⟨⟨amount, mid⟩, he, h⟩ := bind_eq_ok.1 h
    cases h
    obtain ⟨hk, hts⟩ := reading_expect_eq_ok.1 he
    cases hsign : take? (fun t => (sign? t).isSome) ts with
    | none =>
      rw [hsign, Option.map_none, Option.getD_none] at hts
      rw [hts]
      exact @Suffix.Begins.offset word amount none rest hw nofun hk
    | some q =>
      obtain ⟨t, ts', hs, rfl, -, hr⟩ := exists_of_take?_eq_some hsign
      rw [hsign, Option.map_some, Option.getD_some, hr] at hts
      rw [hts]
      exact @Suffix.Begins.offset word amount (some t) rest hw (by simpa using hs) hk
  · intro h
    cases h with
    | offset _ isSign lasts =>
      rw [rest_behind_sign isSign (by simp [lasts]), reading_expect_eq_ok.2 ⟨lasts, rfl⟩]
      rfl

theorem reading_timestamp_iff {mark : Token} (hm : mark.kind = .atSign) :
    reading (timestamp stop ts) = .ok ((), rest) ↔
      (Suffix.modifier .atSign).Begins (mark :: ts) rest := by
  rw [reading_timestamp]
  constructor
  · intro h
    split at h
    · rename_i q hq
      obtain ⟨t, ts', hk, rfl, -, hr⟩ := exists_of_take?_eq_some hq
      rw [hr] at h
      cases h
      exact @Suffix.Begins.time mark t none rest hm
        (fun sign h => absurd h (Option.not_mem_none sign)) (by simpa using hk)
    · split at h
      · rename_i q hq
        obtain ⟨t, ts', hs, rfl, -, hr⟩ := exists_of_take?_eq_some hq
        obtain ⟨⟨number, mid⟩, he, h⟩ := bind_eq_ok.1 h
        cases h
        obtain ⟨hk, hts⟩ := reading_expect_eq_ok.1 he
        rw [← hr, hts]
        exact @Suffix.Begins.time mark number (some t) rest hm (by simpa using hs) hk
      · split at h
        · rename_i q hq
          obtain ⟨t, ts', hw, rfl, -, hr⟩ := exists_of_take?_eq_some hq
          obtain ⟨⟨opening, mid⟩, ho, h⟩ := bind_eq_ok.1 h
          obtain ⟨⟨closing, mid'⟩, hc, h⟩ := bind_eq_ok.1 h
          cases h
          obtain ⟨hopens, hmid⟩ := reading_expect_eq_ok.1 ho
          obtain ⟨hcloses, hmid'⟩ := reading_expect_eq_ok.1 hc
          rw [← hr, hmid, hmid']
          exact .endpoint hm hw hopens hcloses
        · exact absurd h fail_ne_ok
  · intro h
    cases h with
    | @time mark number signed? rest isAt isSign isNumber =>
      cases signed? with
      | none =>
        have hnumber : take? (·.kind == .number) (number :: rest) =
          some ⟨number, rest, Nat.lt_succ_self _⟩ := take?_eq_some (by simpa using isNumber)
        simp only [Option.toList_none, List.nil_append, hnumber]
      | some sign =>
        have hsign : take? (fun t => (sign? t).isSome) (sign :: number :: rest) =
          some ⟨sign, number :: rest, Nat.lt_succ_self _⟩ := take?_eq_some (isSign sign rfl)
        have hnumber : take? (·.kind == .number) (sign :: number :: rest) = none :=
          take?_eq_none_iff.2 (by simp [kind_of_sign (isSign sign rfl)])
        simp only [Option.toList_some, List.singleton_append, hnumber, hsign]
        exact bind_eq_ok.2 ⟨_, reading_expect_eq_ok.2 ⟨isNumber, rfl⟩, rfl⟩
    | @endpoint mark word opening closing rest isAt isEnd opens closes =>
      have hword := ((Token.isWord_iff _ _).1 isEnd).1
      have hnumber : take? (·.kind == .number) (word :: opening :: closing :: rest) = none :=
        take?_eq_none_iff.2 (by simp [hword])
      have hsign : take? (fun t => (sign? t).isSome) (word :: opening :: closing :: rest) = none :=
        take?_eq_none_iff.2 (by simp [sign?, hword])
      rw [hnumber, hsign, take?_eq_some isEnd]
      exact bind_eq_ok.2 ⟨_, reading_expect_eq_ok.2 ⟨opens, rfl⟩,
        bind_eq_ok.2 ⟨_, reading_expect_eq_ok.2 ⟨closes, rfl⟩, rfl⟩⟩

namespace Modifiers

/-- A modifier stands there already. -/
def has (ms : Modifiers) : Modifier → Bool
  | .offset => ms.offset
  | .atSign => ms.atSign

/-- One more modifier. -/
def add (ms : Modifiers) : Modifier → Modifiers
  | .offset => { ms with offset := true }
  | .atSign => { ms with atSign := true }

theorem has_none (m : Modifier) : none.has m = false := by
  cases m <;> rfl

theorem has_add (ms : Modifiers) (m m' : Modifier) :
    (ms.add m).has m' = true ↔ m' = m ∨ ms.has m' = true := by
  cases m <;> cases m' <;> simp [has, add]

theorem insert_eq_ok {ms ms' : Modifiers} {m : Modifier} {node : Expr} {pos : Nat} :
    ms.insert m node pos = .ok ms' ↔
      node.TakesModifiers ∧ ms.has m = false ∧ ms' = ms.add m := by
  have taken (fits : Bool) : (if !fits then fail (.modifierTarget m) pos
      else if ms.has m then fail (.modifierRepeated m) pos else .ok (ms.add m)) = .ok ms' ↔
        fits = true ∧ ms.has m = false ∧ ms' = ms.add m := by
    cases fits <;> cases hm : ms.has m <;> simp [fail, eq_comm]
  have hinsert : ms.insert m node pos = (if !decide node.TakesModifiers then
      fail (.modifierTarget m) pos
      else if ms.has m then fail (.modifierRepeated m) pos else .ok (ms.add m)) := by
    cases m <;> cases node <;> rfl
  rw [hinsert, taken, decide_eq_true_iff]

end Modifiers

/-! ## Ranges -/

namespace Suffix

/-- The node that a suffix stands behind is one that it may stand behind. A subquery asks for the
node's type. -/
def Fits (calls : Nat) (node : Expr) : Suffix → Prop
  | .range _ => ∃ s, node = .selector s
  | .subquery _ _ => node.type = .instant ∧ node.typeCalls ≤ calls
  | .modifier _ => node.TakesModifiers

/-- No modifier stands in front of a suffix that may not stand there. -/
def IsFree (ms : Modifiers) : Suffix → Prop
  | .range _ => ms = .none
  | .subquery _ _ => True
  | .modifier m => ms.has m = false

/-- The modifiers that stand behind a node with a suffix. -/
def track (ms : Modifiers) : Suffix → Modifiers
  | .range _ => .none
  | .subquery _ _ => .none
  | .modifier m => ms.add m

end Suffix

/-- The step of a subquery is the duration that stands there, if one does. -/
theorem subqueryStep_eq (ts : List Token) :
    ∃ step? : Option Token, (∀ step ∈ step?, step.kind = .duration) ∧
      (subqueryStep ts).value = step?.map Token.value ∧
      ts = step?.toList ++ (subqueryStep ts).rest := by
  unfold subqueryStep
  split
  · rename_i q hq
    obtain ⟨step, rest, hk, rfl, hv, hr⟩ := exists_of_take?_eq_some hq
    exact ⟨some step, by simpa using hk, congrArg (fun t => some (Token.value t)) hv,
      congrArg (step :: ·) hr.symm⟩
  · exact ⟨none, fun step h => absurd h (Option.not_mem_none step), rfl, rfl⟩

theorem subqueryStep_append {step? : Option Token} {closing : Token}
    (hs : ∀ step ∈ step?, step.kind = .duration) (hc : closing.kind ≠ .duration)
    (rest : List Token) :
    (subqueryStep (step?.toList ++ closing :: rest)).value = step?.map Token.value ∧
      (subqueryStep (step?.toList ++ closing :: rest)).rest = closing :: rest := by
  cases step? with
  | none =>
    have hnone : take? (·.kind == .duration) (closing :: rest) = none :=
      take?_eq_none_iff.2 (by simpa using hc)
    simp only [subqueryStep, Option.toList_none, List.nil_append, hnone]
    exact ⟨rfl, rfl⟩
  | some step =>
    have hsome : take? (·.kind == .duration) (step :: closing :: rest) =
      some ⟨step, closing :: rest, Nat.lt_succ_self _⟩ := take?_eq_some (by simp [hs step rfl])
    simp only [subqueryStep, Option.toList_some, List.singleton_append, hsome]
    exact ⟨rfl, rfl⟩

theorem reading_range_iff {bracket : Token} {start : Nat} {node e : Expr}
    (hb : bracket.kind = .leftBracket) :
    reading (range stop calls start node ts) = .ok (e, rest) ↔
      ∃ s : Suffix, s.isModifier = false ∧ s.Begins (bracket :: ts) rest ∧ s.Fits calls node ∧
        e = s.wrap node := by
  rw [reading_range]
  constructor
  · intro h
    obtain ⟨⟨duration, mid⟩, hd, h⟩ := bind_eq_ok.1 h
    obtain ⟨hlasts, hts⟩ := reading_expect_eq_ok.1 hd
    rw [hts]
    simp only at h
    split at h
    · rename_i q hq
      obtain ⟨colon, ts', hdivides, hmid, -, hr⟩ := exists_of_take?_eq_some hq
      obtain ⟨⟨closing, mid'⟩, hc, h⟩ := bind_eq_ok.1 h
      obtain ⟨hcloses, hrest⟩ := reading_expect_eq_ok.1 hc
      obtain ⟨type, hwithin, h⟩ := bind_eq_ok.1 h
      obtain ⟨hcalls, rfl⟩ := Expr.typeWithin_eq_ok.1 hwithin
      split at h
      · rename_i htype
        cases h
        obtain ⟨step?, hsteps, hvalue, hts'⟩ := subqueryStep_eq q.rest
        rw [hrest, hr] at hts'
        rw [hvalue, hmid, hts']
        exact ⟨.subquery duration.value _, rfl,
          .subquery hb hlasts (by simpa using hdivides) hsteps hcloses, ⟨htype, hcalls⟩, rfl⟩
      · exact absurd h fail_ne_ok
    · obtain ⟨⟨closing, mid'⟩, hc, h⟩ := bind_eq_ok.1 h
      obtain ⟨hcloses, hrest⟩ := reading_expect_eq_ok.1 hc
      simp only at h
      split at h
      · cases h
        rw [hrest]
        exact ⟨.range duration.value, rfl, .range hb hlasts hcloses, ⟨_, rfl⟩, rfl⟩
      · exact absurd h fail_ne_ok
  · rintro ⟨s, hs, hbegins, hfits, rfl⟩
    cases hbegins with
    | @range opening duration closing rest opens lasts closes =>
      obtain ⟨sel, rfl⟩ := hfits
      have hcolon : take? (·.kind == .colon) (closing :: rest) = none :=
        take?_eq_none_iff.2 (by simp [closes])
      refine bind_eq_ok.2 ⟨_, reading_expect_eq_ok.2 ⟨lasts, rfl⟩, ?_⟩
      simp only [hcolon]
      exact bind_eq_ok.2 ⟨_, reading_expect_eq_ok.2 ⟨closes, rfl⟩, rfl⟩
    | @subquery opening duration colon closing step? rest opens lasts divides steps closes =>
      have hcolon : take? (·.kind == .colon) (colon :: (step?.toList ++ closing :: rest)) =
        some ⟨colon, _, Nat.lt_succ_self _⟩ := take?_eq_some (by simpa using divides)
      refine bind_eq_ok.2 ⟨_, reading_expect_eq_ok.2 ⟨lasts, rfl⟩, ?_⟩
      have hclosing : closing.kind ≠ .duration := by simp [closes]
      obtain ⟨hvalue, hrest⟩ := subqueryStep_append steps hclosing rest
      obtain ⟨htype, hcalls⟩ := hfits
      have hwithin : node.typeWithin calls = .ok .instant :=
        Expr.typeWithin_eq_ok.2 ⟨hcalls, htype.symm⟩
      simp only [hcolon, hvalue]
      exact bind_eq_ok.2 ⟨_, reading_expect_eq_ok.2 ⟨closes, hrest⟩,
        bind_eq_ok.2 ⟨_, hwithin, rfl⟩⟩
    | offset _ _ _ => cases hs
    | time _ _ _ => cases hs
    | endpoint _ _ _ _ => cases hs

theorem checkRange_eq_ok {bracket : Token} {ms : Modifiers} {node : Expr}
    (h : s.Begins (bracket :: ts) rest) (hs : s.isModifier = false) (hf : s.Fits calls node)
    {pos : Nat} :
    checkRange ms node pos (bracket :: ts) = .ok () ↔ s.IsFree ms := by
  cases h with
  | range opens lasts closes =>
    obtain ⟨sel, rfl⟩ := hf
    obtain ⟨o, a⟩ := ms
    cases o <;> cases a <;> simp [checkRange, Modifiers.first?, startsSubquery, closes, fail,
      Suffix.IsFree, Modifiers.none]
  | subquery opens lasts divides steps closes =>
    refine iff_of_true ?_ trivial
    cases node <;> cases hm : ms.first? <;> simp [checkRange, hm, startsSubquery, divides]
  | offset _ _ _ => cases hs
  | time _ _ _ => cases hs
  | endpoint _ _ _ _ => cases hs

/-! ## Rows -/

/-- The parser goes on behind a suffix that may stand where it does. -/
theorem Suffixed.cons {node e : Expr} {ms : Modifiers} (first : s.Begins ts mid)
    (fits : s.Fits (calls - 1) node) (isFree : s.IsFree ms)
    (outer : Suffixed stop calls (s.wrap node) (s.track ms) mid e rest) :
    Suffixed stop calls node ms ts e rest := by
  cases first with
  | range opens lasts closes =>
    have hbegins := @Suffix.Begins.range _ _ _ mid opens lasts closes
    exact .range opens ((checkRange_eq_ok hbegins rfl fits).2 isFree)
      ((reading_range_iff opens).2 ⟨_, rfl, hbegins, fits, rfl⟩) outer
  | subquery opens lasts divides steps closes =>
    have hbegins := @Suffix.Begins.subquery _ _ _ _ _ mid opens lasts divides steps closes
    exact .range opens ((checkRange_eq_ok hbegins rfl fits).2 isFree)
      ((reading_range_iff opens).2 ⟨_, rfl, hbegins, fits, rfl⟩) outer
  | offset isOffset isSign lasts =>
    exact .offset isOffset (Modifiers.insert_eq_ok.2 ⟨fits, isFree, rfl⟩)
      ((reading_offset_iff isOffset).2 (.offset isOffset isSign lasts)) outer
  | time isAt isSign isNumber =>
    exact .atSign isAt (Modifiers.insert_eq_ok.2 ⟨fits, isFree, rfl⟩)
      ((reading_timestamp_iff isAt).2 (.time isAt isSign isNumber)) outer
  | endpoint isAt isEnd opens closes =>
    exact .atSign isAt (Modifiers.insert_eq_ok.2 ⟨fits, isFree, rfl⟩)
      ((reading_timestamp_iff isAt).2 (.endpoint isAt isEnd opens closes)) outer

/-- Suffixes behind a node that has some modifiers, each of which may stand where it does. -/
def AreAllowed (calls : Nat) : Expr → Modifiers → List Suffix → Prop
  | _, _, [] => True
  | node, ms, s :: ss =>
    (s.Fits calls node ∧ s.IsFree ms) ∧ AreAllowed calls (s.wrap node) (s.track ms) ss

/-- The parser takes a row of suffixes each of which may stand where it does, and nothing behind the
row begins another one. -/
theorem suffixed_iff {node e : Expr} {ms : Modifiers} :
    Suffixed stop calls node ms ts e rest ↔ ∃ ss, SuffixRow ts ss rest ∧
      (∀ t ∈ rest.head?, t.isSuffix = false) ∧ AreAllowed (calls - 1) node ms ss ∧
      e = ss.foldl Suffix.wrap node := by
  constructor
  · intro h
    induction h with
    | @done node ms ts ends => exact ⟨[], .nil ts, ends, trivial, rfl⟩
    | @range node inner e ms bracket ts mid rest opens allowed range outer ih =>
      obtain ⟨ss, hrow, hends, hallowed, rfl⟩ := ih
      obtain ⟨s, hs, hbegins, hfits, rfl⟩ := (reading_range_iff opens).1 range
      have hfree := (checkRange_eq_ok hbegins hs hfits).1 allowed
      have htrack : s.track ms = .none := by
        cases s <;> first | rfl | cases hs
      exact ⟨s :: ss, .cons hbegins hrow, hends, ⟨⟨hfits, hfree⟩, htrack ▸ hallowed⟩, rfl⟩
    | @offset node e ms ms' word ts mid rest isOffset allowed amount outer ih =>
      obtain ⟨ss, hrow, hends, hallowed, rfl⟩ := ih
      obtain ⟨htakes, hfree, rfl⟩ := Modifiers.insert_eq_ok.1 allowed
      exact ⟨.modifier .offset :: ss, .cons ((reading_offset_iff isOffset).1 amount) hrow, hends,
        ⟨⟨htakes, hfree⟩, hallowed⟩, rfl⟩
    | @atSign node e ms ms' sign ts mid rest isAt allowed time outer ih =>
      obtain ⟨ss, hrow, hends, hallowed, rfl⟩ := ih
      obtain ⟨htakes, hfree, rfl⟩ := Modifiers.insert_eq_ok.1 allowed
      exact ⟨.modifier .atSign :: ss, .cons ((reading_timestamp_iff isAt).1 time) hrow, hends,
        ⟨⟨htakes, hfree⟩, hallowed⟩, rfl⟩
  · rintro ⟨ss, hrow, hends, hallowed, rfl⟩
    induction hrow generalizing node ms with
    | nil ts => exact .done hends
    | @cons s ss ts mid rest first others ih =>
      obtain ⟨⟨hfits, hfree⟩, hallowed⟩ := hallowed
      exact .cons first hfits hfree (ih hends hallowed)

/-! ## The longest row -/

namespace Suffix

/-- The kind of token that a suffix starts with. -/
def startKind : Suffix → Kind
  | .range _ => .leftBracket
  | .subquery _ _ => .leftBracket
  | .modifier .offset => .identifier
  | .modifier .atSign => .atSign

theorem Begins.kind {t : Token} (h : s.Begins (t :: ts) rest) : t.kind = s.startKind := by
  cases h with
  | range opens _ _ => exact opens
  | subquery opens _ _ _ _ => exact opens
  | offset isOffset _ _ => exact ((Token.isWord_iff _ _).1 isOffset).1
  | time isAt _ _ => exact isAt
  | endpoint isAt _ _ _ => exact isAt

/-- Between brackets stands one range or one subquery. -/
theorem Begins.unique_bracket {s' : Suffix} {rest' : List Token} (h : s.Begins ts rest)
    (h' : s'.Begins ts rest') (hs : s.isModifier = false) (hs' : s'.isModifier = false) :
    s = s' ∧ rest = rest' := by
  cases ts with
  | nil => exact absurd h.length_lt (Nat.not_lt_zero _)
  | cons t ts =>
    have ht : t.kind = .leftBracket := by
      rw [h.kind]
      cases s <;> first | rfl | cases hs
    -- Both are read behind a selector, which any of them may stand behind.
    have hread : ∀ (s : Suffix) (rest : List Token), s.Begins (t :: ts) rest →
        s.isModifier = false → reading (PanelExport.Query.range 0 1 0 (.selector ⟨0, "", []⟩) ts) =
          .ok (s.wrap (.selector ⟨0, "", []⟩), rest) := by
      intro s rest h hs
      refine (reading_range_iff ht).2 ⟨s, hs, h, ?_, rfl⟩
      cases s with
      | range d => exact ⟨_, rfl⟩
      | subquery d step? => exact ⟨rfl, Nat.le_refl 1⟩
      | modifier m => cases hs
    have hsame := Except.ok.inj ((hread s rest h hs).symm.trans (hread s' rest' h' hs'))
    refine ⟨?_, congrArg Prod.snd hsame⟩
    have hwrap := congrArg Prod.fst hsame
    cases s <;> cases s' <;> simp_all [wrap, isModifier]

/-- Tokens begin with one suffix at most. -/
theorem Begins.unique {s' : Suffix} {rest' : List Token} (h : s.Begins ts rest)
    (h' : s'.Begins ts rest') : s = s' ∧ rest = rest' := by
  cases ts with
  | nil => exact absurd h.length_lt (Nat.not_lt_zero _)
  | cons t ts =>
    have hkind := h.kind.symm.trans h'.kind
    cases s with
    | modifier m =>
      cases s' with
      | modifier m' =>
        cases m with
        | offset =>
          cases m' with
          | offset =>
            have ht : t.isWord ["offset"] = true := by
              cases h with
              | offset isOffset _ _ => exact isOffset
            have hread := (@reading_offset_iff 0 _ _ _ ht).2 h
            rw [(@reading_offset_iff 0 _ _ _ ht).2 h', Except.ok.injEq] at hread
            exact ⟨rfl, (congrArg Prod.snd hread).symm⟩
          | atSign => cases hkind
        | atSign =>
          cases m' with
          | offset => cases hkind
          | atSign =>
            have hread := (@reading_timestamp_iff 0 _ _ _ h.kind).2 h
            rw [(@reading_timestamp_iff 0 _ _ _ h.kind).2 h', Except.ok.injEq] at hread
            exact ⟨rfl, (congrArg Prod.snd hread).symm⟩
      | _ => cases m <;> cases hkind
    | _ =>
      cases s' with
      | modifier m' => cases m' <;> cases hkind
      | _ => exact h.unique_bracket h' rfl rfl

end Suffix

theorem SuffixRow.prefix {ss' : List Suffix} {rest' : List Token} (h : SuffixRow ts ss rest)
    (hend : ∀ s mid, ¬ Suffix.Begins s rest mid) (h' : SuffixRow ts ss' rest') : ss' <+: ss := by
  induction h generalizing ss' rest' with
  | nil ts =>
    cases h' with
    | nil => exact List.prefix_refl _
    | cons first _ => exact absurd first (hend _ _)
  | cons first _ ih =>
    cases h' with
    | nil => exact List.nil_prefix
    | cons first' others' =>
      obtain ⟨rfl, rfl⟩ := first.unique first'
      exact List.cons_prefix_cons.2 ⟨rfl, ih hend others'⟩

/-- There is always a longest row. -/
theorem exists_longestRow (ts : List Token) : ∃ ss rest, IsLongestRow ts ss rest := by
  have hmaximal : ∀ n, ∀ ts : List Token, ts.length < n →
      ∃ ss rest, SuffixRow ts ss rest ∧ ∀ s mid, ¬ Suffix.Begins s rest mid := by
    intro n
    induction n with
    | zero => exact fun ts h => absurd h (Nat.not_lt_zero _)
    | succ n ih =>
      intro ts h
      by_cases hfirst : ∃ s mid, Suffix.Begins s ts mid
      · obtain ⟨s, mid, hfirst⟩ := hfirst
        have hlt := hfirst.length_lt
        obtain ⟨ss, rest, hrow, hend⟩ := ih mid (by omega)
        exact ⟨s :: ss, rest, .cons hfirst hrow, hend⟩
      · exact ⟨[], ts, .nil ts, fun s mid hs => hfirst ⟨s, mid, hs⟩⟩
  obtain ⟨ss, rest, hrow, hend⟩ := hmaximal _ ts (Nat.lt_succ_self _)
  exact ⟨ss, rest, hrow, fun ss' rest' h' => hrow.prefix hend h'⟩

/-! ## Places -/

/-- Only modifiers leave a selector what it is. -/
theorem foldl_wrap_eq_selector {node : Expr} {sel : Selector}
    (h : ss.foldl Suffix.wrap node = .selector sel) :
    node = .selector sel ∧ ∀ s ∈ ss, s.isModifier = true := by
  induction ss generalizing node with
  | nil => exact ⟨h, List.forall_mem_nil _⟩
  | cons s ss ih =>
    obtain ⟨hnode, hmodifiers⟩ := ih h
    cases s with
    | range d => cases node <;> cases hnode
    | subquery d step? => cases hnode
    | modifier m => exact ⟨hnode, List.forall_mem_cons.2 ⟨rfl, hmodifiers⟩⟩

/-- A modifier stands behind the node of a row if only modifiers follow it there. -/
theorem foldl_track_has {ms : Modifiers} {m : Modifier} :
    (ss.foldl Suffix.track ms).has m = true ↔
      (∃ before modifiers, ss = before ++ .modifier m :: modifiers ∧
        ∀ s ∈ modifiers, s.isModifier = true) ∨
      (ms.has m = true ∧ ∀ s ∈ ss, s.isModifier = true) := by
  induction ss generalizing ms with
  | nil => simp
  | cons s ss ih =>
    rw [List.foldl_cons, ih]
    constructor
    · rintro (⟨before, modifiers, rfl, hmodifiers⟩ | ⟨hhas, hmodifiers⟩)
      · exact .inl ⟨s :: before, modifiers, rfl, hmodifiers⟩
      · cases s with
        | range d => simp [Suffix.track, Modifiers.has_none] at hhas
        | subquery d step? => simp [Suffix.track, Modifiers.has_none] at hhas
        | modifier m' =>
          rcases (Modifiers.has_add _ _ _).1 hhas with rfl | hhas
          · exact .inl ⟨[], ss, rfl, hmodifiers⟩
          · exact .inr ⟨hhas, List.forall_mem_cons.2 ⟨rfl, hmodifiers⟩⟩
    · rintro (⟨before, modifiers, hsplit, hmodifiers⟩ | ⟨hhas, hmodifiers⟩)
      · cases before with
        | nil =>
          cases hsplit
          exact .inr ⟨(Modifiers.has_add _ _ _).2 (.inl rfl), hmodifiers⟩
        | cons _ before =>
          cases hsplit
          exact .inl ⟨before, modifiers, rfl, hmodifiers⟩
      · obtain ⟨hfirst, hothers⟩ := List.forall_mem_cons.1 hmodifiers
        cases s with
        | range d => cases hfirst
        | subquery d step? => cases hfirst
        | modifier m' => exact .inr ⟨(Modifiers.has_add _ _ _).2 (.inr hhas), hothers⟩

/-- If every suffix is free to stand where it does, a row of modifiers has none twice. -/
theorem count_le_of_isFree {before modifiers after : List Suffix} {m : Modifier}
    (h : ∀ before s after, ss = before ++ s :: after →
      s.IsFree (before.foldl Suffix.track .none))
    (hs : ss = before ++ modifiers ++ after) (hm : ∀ s ∈ modifiers, s.isModifier = true) :
    modifiers.count (.modifier m) +
      (if (before.foldl Suffix.track .none).has m = true then 1 else 0) ≤ 1 := by
  induction modifiers generalizing before with
  | nil =>
    rw [List.count_nil]
    split <;> decide
  | cons s modifiers ih =>
    obtain ⟨hfirst, hothers⟩ := List.forall_mem_cons.1 hm
    cases s with
    | range d => cases hfirst
    | subquery d step? => cases hfirst
    | modifier m' =>
      have hfree : (before.foldl Suffix.track .none).has m' = false :=
        h before (.modifier m') (modifiers ++ after) (by simpa using hs)
      have hlater := @ih (before ++ [.modifier m']) (by simpa using hs) hothers
      simp only [List.foldl_append, List.foldl_cons, List.foldl_nil, Suffix.track,
        Modifiers.has_add] at hlater
      by_cases hsame : m = m'
      · subst hsame
        simp only [true_or, if_true] at hlater
        simp only [List.count_cons_self, hfree, Bool.false_eq_true, if_false]
        omega
      · simp only [hsame, false_or] at hlater
        rwa [List.count_cons_of_ne (by simpa using Ne.symm hsame)]

theorem areAllowed_iff {node : Expr} {ms : Modifiers} :
    AreAllowed calls node ms ss ↔ ∀ before s after, ss = before ++ s :: after →
      s.Fits calls (before.foldl Suffix.wrap node) ∧
        s.IsFree (before.foldl Suffix.track ms) := by
  induction ss generalizing node ms with
  | nil => simp [AreAllowed]
  | cons s ss ih =>
    rw [AreAllowed, ih]
    constructor
    · rintro ⟨hfirst, hothers⟩ before s' after hsplit
      cases before with
      | nil =>
        cases hsplit
        exact hfirst
      | cons _ before =>
        cases hsplit
        exact hothers before s' after rfl
    · exact fun h => ⟨h [] s ss rfl, fun before s' after hsplit =>
        h (s :: before) s' after (congrArg (s :: ·) hsplit)⟩

/-- What a row of suffixes makes of a node is the node itself or has a range as its value. -/
theorem foldl_wrap_eq_or (ss : List Suffix) (node : Expr) :
    ss.foldl Suffix.wrap node = node ∨ (ss.foldl Suffix.wrap node).type = .range := by
  induction ss generalizing node with
  | nil => exact .inl rfl
  | cons s ss ih =>
    have hfirst : s.wrap node = node ∨ (s.wrap node).type = .range := by
      cases s with
      | range d => cases node <;> first | exact .inl rfl | exact .inr rfl
      | subquery d step? => exact .inr rfl
      | modifier m => exact .inl rfl
    rcases hfirst with hsame | hrange
    · rw [List.foldl_cons, hsame]
      exact ih node
    · exact .inr ((ih (s.wrap node)).elim (fun hsame => hsame ▸ hrange) id)

/-- The suffixes behind a node without modifiers are allowed if they are in their right places, and
the type of the node can be found if there is a subquery among them. -/
theorem areAllowed_iff_arePlaced {node : Expr} :
    AreAllowed calls node .none ss ↔ ArePlaced node ss ∧
      ∀ duration step?, .subquery duration step? ∈ ss → node.typeCalls ≤ calls := by
  have hkept : ∀ {before : List Suffix}, (before.foldl Suffix.wrap node).type = .instant →
      before.foldl Suffix.wrap node = node := fun {before} htype =>
    (foldl_wrap_eq_or before node).resolve_right (by simp [htype])
  rw [areAllowed_iff]
  constructor
  · intro h
    refine ⟨⟨fun before m after hsplit => (h _ _ _ hsplit).1, ?_, fun before d after hsplit => ?_,
      fun before d step? after hsplit => (h _ _ _ hsplit).1.1⟩, fun d step? hmem => ?_⟩
    · intro before modifiers after m hsplit hmodifiers
      have hcount := @count_le_of_isFree _ before modifiers after m
        (fun before s after hsplit => (h before s after hsplit).2) hsplit hmodifiers
      omega
    · obtain ⟨hselector, hfree⟩ := h _ _ _ hsplit
      refine ⟨hselector, fun s hs => ?_⟩
      obtain ⟨sel, hsel⟩ := hselector
      have hmodifiers := (foldl_wrap_eq_selector hsel).2
      obtain ⟨front, behind, rfl⟩ := List.append_of_mem hs
      cases s with
      | range d => rfl
      | subquery d step? => rfl
      | modifier m =>
        have hhas := (@foldl_track_has _ .none m).2 (.inl ⟨front, behind, rfl, fun s hs =>
          hmodifiers s (List.mem_append_right _ (List.mem_cons_of_mem _ hs))⟩)
        rw [show _ = Modifiers.none from hfree, Modifiers.has_none] at hhas
        cases hhas
    · obtain ⟨before, after, hsplit⟩ := List.append_of_mem hmem
      obtain ⟨htype, hcalls⟩ := (h _ _ _ hsplit).1
      exact hkept htype ▸ hcalls
  · rintro ⟨h, hcalls⟩ before s after hsplit
    cases s with
    | range d =>
      obtain ⟨⟨sel, hsel⟩, hplain⟩ := h.range _ _ _ hsplit
      have hmodifiers := (foldl_wrap_eq_selector hsel).2
      have hbefore : before = [] := List.eq_nil_iff_forall_not_mem.2 fun s hs =>
        Bool.false_ne_true ((hplain s hs).symm.trans (hmodifiers s hs))
      subst hbefore
      exact ⟨⟨sel, hsel⟩, rfl⟩
    | subquery d step? =>
      have htype := h.subquery _ _ _ _ hsplit
      have hfits := hcalls d step? (hsplit ▸ List.mem_append_right _ List.mem_cons_self)
      exact ⟨⟨htype, (hkept htype).symm ▸ hfits⟩, trivial⟩
    | modifier m =>
      refine ⟨h.modifier _ _ _ hsplit, Bool.eq_false_iff.2 fun hhas => ?_⟩
      rcases foldl_track_has.1 hhas with ⟨front, modifiers, rfl, hmodifiers⟩ | ⟨hnone, -⟩
      · have hboth : ∀ s ∈ .modifier m :: (modifiers ++ [.modifier m]), s.isModifier = true :=
          List.forall_mem_cons.2 ⟨rfl, List.forall_mem_append.2
            ⟨hmodifiers, List.forall_mem_singleton.2 rfl⟩⟩
        have honce := h.once front _ after m (by simpa using hsplit) hboth
        rw [List.count_cons_self, List.count_append, List.count_singleton_self] at honce
        omega
      · rw [Modifiers.has_none] at hnone
        cases hnone

/-- The parser reads the longest row of suffixes there is, if it ends where nothing begins another
one and every suffix is in its right place. What it reads is the node with the ranges and the
subqueries of the row around it, and no trace of its modifiers. Of the limit it is only asked that
the type of a node with a subquery behind it can be found. -/
theorem suffixes_placed (stop : Nat) (node : Expr) (ts : List Token) :
    (∃ ss rest, IsLongestRow ts ss rest) ∧
    ∀ calls e rest, reading (suffixes stop calls node .none ts) = .ok (e, rest) ↔
      ∃ ss, IsLongestRow ts ss rest ∧ (∀ t ∈ rest.head?, t.isSuffix = false) ∧
        (ArePlaced node ss ∧
          ∀ duration step?, .subquery duration step? ∈ ss → node.typeCalls < calls) ∧
        e = ss.foldl Suffix.wrap node := by
  refine ⟨exists_longestRow ts, fun calls e rest => ?_⟩
  have hpos := node.typeCalls_pos
  have hcalls : node.typeCalls ≤ calls - 1 ↔ node.typeCalls < calls := by omega
  simp only [suffixes_iff, suffixed_iff, ← hcalls]
  constructor
  · rintro ⟨ss, hrow, hends, hallowed, rfl⟩
    have hend : ∀ s mid, ¬ Suffix.Begins s rest mid := fun s mid hs => by
      obtain ⟨t, ht, hsuffix⟩ := hs.head
      rw [hends t ht] at hsuffix
      cases hsuffix
    exact ⟨ss, ⟨hrow, fun _ _ h' => hrow.prefix hend h'⟩, hends,
      areAllowed_iff_arePlaced.1 hallowed, rfl⟩
  · rintro ⟨ss, hrow, hends, hplaced, rfl⟩
    exact ⟨ss, hrow.row, hends, areAllowed_iff_arePlaced.2 hplaced, rfl⟩

end PanelExport.Query
