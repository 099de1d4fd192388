import PanelExport.Proofs.Query.Literals

/-!
# What a parser blames

A parser leaves a tail of its tokens, and where it fails, it blames one of them, the end of the
text, or the place of a tree that it has read; and such a place is again that of a token. A literal
without a value is blamed for itself. So what is true of these faults, whatever it is, is true of
every fault of the parsers, except that they may also nest too deeply.

* `Grants`: some faults hold all that tokens and the end of the text can be blamed for.
* `Keeps`: a parser leaves a tail of its tokens, and its faults and what it reads are as they
  should be.
* `HasRoom`: the limit is not reached, or that is one of the faults.
* `levels_keep`: within every limit the parsers keep to the faults that their tokens grant.
* `parseTokens_failsAmong`: the faults of a row of tokens.
-/

namespace PanelExport.Query

variable {α β : Type} {F : Fault → Prop} {stop pos : Nat} {ts rest : List Token}

/-! ## Faults -/

/-- A cause that is found at a place: nesting too deeply is found nowhere in the text. -/
def ParseCause.IsLocal : ParseCause → Prop
  | .tooDeep => False
  | _ => True

/-- Every fault of the grammar that is found at this place is among some faults. -/
def Blamable (F : Fault → Prop) (pos : Nat) : Prop :=
  ∀ cause : ParseCause, cause.IsLocal → F (.malformed ⟨cause, pos⟩)

/-- Whatever the fault is, it is among some faults. -/
def FailsAmong (F : Fault → Prop) (x : Except Fault α) : Prop :=
  ∀ fault, x = .error fault → F fault

theorem failsAmong_ok (a : α) : FailsAmong F (.ok a) := by
  intro fault h
  cases h

theorem failsAmong_error {fault : Fault} (h : F fault) :
    FailsAmong F (.error fault : Except Fault α) :=
  fun _ hf => Except.error.inj hf ▸ h

/-- A fault that looks at one place fails among those that may be put there. -/
theorem failsAmong_fail (h : Blamable F pos) {cause : ParseCause} (hc : cause.IsLocal) :
    FailsAmong F (fail cause pos : Except Fault α) :=
  failsAmong_error (h cause hc)

theorem failsAmong_ite {c : Prop} [Decidable c] {x y : Except Fault α} (hx : FailsAmong F x)
    (hy : FailsAmong F y) : FailsAmong F (if c then x else y) := by
  split
  · exact hx
  · exact hy

/-- What fails among some faults step by step fails among them as a whole. -/
theorem FailsAmong.bind {x : Except Fault α} {f : α → Except Fault β} (h : FailsAmong F x)
    (hf : ∀ a, x = .ok a → FailsAmong F (f a)) : FailsAmong F (x >>= f) := by
  cases x with
  | error fault => exact failsAmong_error (h fault rfl)
  | ok a => exact hf a rfl

/-- A test that blames a place if its condition holds. -/
theorem failsAmong_test {c : Prop} [Decidable c] {cause : ParseCause} {x : Except Fault α}
    (h : Blamable F pos) (hc : cause.IsLocal) (hx : FailsAmong F x) :
    FailsAmong F (if c then fail cause pos else x) :=
  failsAmong_ite (failsAmong_fail h hc) hx

/-! ## Checks -/

theorem checkSelector_failsAmong {s : Selector} (h : Blamable F s.pos) :
    FailsAmong F (checkSelector s) := by
  unfold checkSelector
  split
  · exact failsAmong_fail h trivial
  · exact failsAmong_test h trivial (failsAmong_ok s)

theorem insert_failsAmong (h : Blamable F pos) (ms : Modifiers) (m : Modifier) (node : Expr) :
    FailsAmong F (ms.insert m node pos) := by
  refine failsAmong_test h trivial (failsAmong_test h trivial ?_)
  cases m <;> exact failsAmong_ok _

theorem checkRange_failsAmong (h : Blamable F pos) (ms : Modifiers) (node : Expr)
    (ts : List Token) : FailsAmong F (checkRange ms node pos ts) := by
  unfold checkRange
  split
  · exact failsAmong_ite (failsAmong_ok ()) (failsAmong_fail h trivial)
  · exact failsAmong_ok ()

/-- As many calls may be open as are needed, or some faults hold that of nesting too deeply. -/
def HasRoom (F : Fault → Prop) (needed calls : Nat) : Prop :=
  F (.malformed ⟨.tooDeep, 0⟩) ∨ needed ≤ calls

/-- There is room for other calls as well if they fit whenever the first ones do. -/
theorem HasRoom.of_le {needed calls needed' calls' : Nat} (h : HasRoom F needed calls)
    (hle : needed ≤ calls → needed' ≤ calls') : HasRoom F needed' calls' :=
  h.imp_right hle

/-- Finding a type fails only where there is no room for its calls. -/
theorem typeWithin_failsAmong {calls : Nat} {e : Expr} (hroom : HasRoom F e.typeCalls calls) :
    FailsAmong F (e.typeWithin calls) := by
  rw [Expr.typeWithin_eq]
  split
  · exact failsAmong_ok _
  · rename_i hlarge
    exact failsAmong_error (hroom.resolve_right hlarge)

theorem operandType_failsAmong (h : Blamable F pos) {calls : Nat} {e : Expr}
    (hroom : HasRoom F e.typeCalls calls) : FailsAmong F (operandType calls pos e) :=
  (typeWithin_failsAmong hroom).bind fun _ _ =>
    failsAmong_ite (failsAmong_ok _) (failsAmong_fail h trivial)

/-- The rules of an operator put their faults at its place. -/
theorem checkBinary_failsAmong (h : Blamable F pos) {calls : Nat} (op : BinaryOp) {lhs rhs : Expr}
    (hl : HasRoom F lhs.typeCalls calls) (hr : HasRoom F rhs.typeCalls calls) (returnBool : Bool) :
    FailsAmong F (checkBinary calls pos op lhs rhs returnBool) :=
  (operandType_failsAmong h hl).bind fun _ _ => (operandType_failsAmong h hr).bind fun _ _ =>
    failsAmong_test h trivial (failsAmong_test h trivial (failsAmong_ok _))

/-- The argument that is of the wrong type is one of the arguments. -/
theorem mem_of_wrongArgument? {s : Signature} {index : Nat} {args : List Expr}
    {expected : ValueType} {arg : Expr} (h : wrongArgument? s index args = some (expected, arg)) :
    arg ∈ args := by
  induction args generalizing index with
  | nil => cases h
  | cons first args ih =>
    unfold wrongArgument? at h
    split at h
    · split at h
      · exact List.mem_cons_of_mem _ (ih h)
      · cases h
        exact List.mem_cons_self
    · exact List.mem_cons_of_mem _ (ih h)

/-- The rules of a call put their faults at its name or at an argument. -/
theorem checkCall_failsAmong (h : Blamable F pos) (s : Signature) {args : List Expr}
    (hargs : ∀ e ∈ args, Blamable F e.pos) : FailsAmong F (checkCall pos s args) := by
  refine failsAmong_test h trivial ?_
  split
  · exact failsAmong_fail h trivial
  · split
    · rename_i hwrong
      exact failsAmong_fail (hargs _ (mem_of_wrongArgument? hwrong)) trivial
    · exact failsAmong_ok _

/-- The rules of an aggregation put their faults at its name or at an argument. -/
theorem checkAggregate_failsAmong (h : Blamable F pos) (op : AggregateOp) (g : Grouping)
    {args : List Expr} (hargs : ∀ e ∈ args, Blamable F e.pos) :
    FailsAmong F (checkAggregate pos op g args) := by
  have hchecked : ∀ e ∈ args, ∀ parameter? : Option Expr, FailsAmong F
      (if e.type = .instant then .ok (Expr.aggregate pos op e parameter? g)
        else fail (.aggregateType e.type) e.pos) :=
    fun e he _ => failsAmong_ite (failsAmong_ok _) (failsAmong_fail (hargs e he) trivial)
  simp only [checkAggregate]
  split
  · exact hchecked _ List.mem_cons_self none
  · exact failsAmong_fail h trivial
  · refine failsAmong_ite (hchecked _ (by simp) (some _)) ?_
    exact failsAmong_fail (hargs _ List.mem_cons_self) trivial
  · exact failsAmong_fail h trivial

/-- A sign blames the number behind it if that is no double and becomes none. -/
theorem applySign_failsAmong (h : Blamable F pos) {sign : Sign} {e : Expr}
    (he : ∀ p value fault, e = .number p value → value.toDouble = .error fault →
      F (.number fault)) : FailsAmong F (applySign pos sign e) := by
  refine failsAmong_test h trivial ?_
  split
  · rename_i p value
    cases hx : value.toDouble with
    | ok x =>
      rw [Number.signed, hx]
      exact failsAmong_ok _
    | error fault =>
      rw [Number.signed, hx]
      exact failsAmong_error (he p value fault rfl hx)
  · exact failsAmong_ok _

/-! ## Tokens and tails -/

/-- Some faults hold all that tokens and the end of the text can be blamed for: a place each, a
literal without a value, and one right behind a sign that is no double and becomes none. -/
structure Grants (F : Fault → Prop) (stop : Nat) (ts : List Token) : Prop where
  finish : Blamable F stop
  tokens : ∀ t ∈ ts, Blamable F t.pos
  literals : ∀ t ∈ ts, ∀ fault, t.literal? = some (.error fault) → F (.number fault)
  signed : ∀ t u us, t :: u :: us <:+ ts → (sign? t).isSome = true →
    ∀ value fault, u.literal? = some (.ok value) → value.toDouble = .error fault →
      F (.number fault)

namespace Grants

/-- What may be blamed in some tokens may be blamed in their tail. -/
theorem suffix (h : Grants F stop ts) (hs : rest <:+ ts) : Grants F stop rest where
  finish := h.finish
  tokens t ht := h.tokens t (hs.subset ht)
  literals t ht := h.literals t (hs.subset ht)
  signed t u us htail := h.signed t u us (htail.trans hs)

theorem current (h : Grants F stop ts) : Blamable F (current stop ts).pos := by
  cases ts with
  | nil => exact h.finish
  | cons t rest => exact h.tokens t List.mem_cons_self

end Grants

/-- Among all faults are those that anything can be blamed for. -/
theorem blamable_any : Blamable (fun _ => True) pos := fun _ _ => trivial

/-- If every fault is allowed, it is allowed at every token. -/
theorem grants_any (stop : Nat) (ts : List Token) : Grants (fun _ => True) stop ts where
  finish := blamable_any
  tokens _ _ := blamable_any
  literals _ _ _ _ := trivial
  signed _ _ _ _ _ _ _ _ _ := trivial

/-- If any fault may be found, so may that of nesting too deeply. -/
theorem hasRoom_any (needed calls : Nat) : HasRoom (fun _ => True) needed calls := .inl trivial

/-- A parser leaves a tail of some tokens, reads only what has a property, and fails only in some
ways. -/
structure Keeps (F : Fault → Prop) (Q : α → Prop) {n : Nat} (ts : List Token)
    (x : Except Fault (Parsed α n)) : Prop where
  faults : FailsAmong F x
  suffix : ∀ p, x = .ok p → p.rest <:+ ts
  value : ∀ p, x = .ok p → Q p.value

/-- A parser does so from every tail of some tokens on. -/
def KeepsTails (F : Fault → Prop) (Q : α → Prop) (p : Parser α) (ts : List Token) : Prop :=
  ∀ rest, rest <:+ ts → Keeps F Q rest (p rest)

/-- Whatever is read is right. -/
def Anything (_ : α) : Prop := True

section Keeps

variable {m n : Nat} {Q : α → Prop} {R : β → Prop}

theorem KeepsTails.suffix {p : Parser α} (h : KeepsTails F Q p ts) (hs : rest <:+ ts) :
    KeepsTails F Q p rest :=
  fun _ hr => h _ (hr.trans hs)

theorem keeps_error {fault : Fault} (h : F fault) :
    Keeps F Q ts (.error fault : Except Fault (Parsed α n)) where
  faults := failsAmong_error h
  suffix _ hp := by cases hp
  value _ hp := by cases hp

theorem keeps_fail (h : Blamable F pos) {cause : ParseCause} (hc : cause.IsLocal) :
    Keeps F Q ts (fail cause pos : Except Fault (Parsed α n)) :=
  keeps_error (h cause hc)

theorem keeps_ok {p : Parsed α n} (hs : p.rest <:+ ts) (hq : Q p.value) : Keeps F Q ts (.ok p) :=
  ⟨failsAmong_ok p, fun _ hp => Except.ok.inj hp ▸ hs, fun _ hp => Except.ok.inj hp ▸ hq⟩

/-- A parser that goes on with the tokens another one left, and with what it read. -/
theorem Keeps.bind_of_eq {x : Except Fault (Parsed β m)}
    {f : Parsed β m → Except Fault (Parsed α n)} (h : Keeps F R ts x)
    (hf : ∀ p, x = .ok p → p.rest <:+ ts → R p.value → Keeps F Q p.rest (f p)) :
    Keeps F Q ts (x >>= f) := by
  cases x with
  | error fault => exact keeps_error (h.faults fault rfl)
  | ok p =>
    have hp := h.suffix p rfl
    have hq := hf p rfl hp (h.value p rfl)
    exact ⟨hq.faults, fun q h => (hq.suffix q h).trans hp, hq.value⟩

/-- A parser that goes on with the tokens another one left. -/
theorem Keeps.bind {x : Except Fault (Parsed β m)} {f : Parsed β m → Except Fault (Parsed α n)}
    (h : Keeps F R ts x) (hf : ∀ p, p.rest <:+ ts → R p.value → Keeps F Q p.rest (f p)) :
    Keeps F Q ts (x >>= f) :=
  h.bind_of_eq fun p _ => hf p

/-- A parser that goes on after a check. -/
theorem Keeps.check {x : Except Fault β} {f : β → Except Fault (Parsed α n)}
    (h : FailsAmong F x) (hf : ∀ b, x = .ok b → Keeps F Q ts (f b)) : Keeps F Q ts (x >>= f) := by
  cases x with
  | error fault => exact keeps_error (h fault rfl)
  | ok b => exact hf b rfl

/-- A parser that starts behind some of the tokens. -/
theorem Keeps.tail {x : Except Fault (Parsed α n)} (hs : rest <:+ ts) (h : Keeps F Q rest x) :
    Keeps F Q ts x :=
  ⟨h.faults, fun p hp => (h.suffix p hp).trans hs, h.value⟩

/-- A parser that keeps to its tokens leaves a tail of them. -/
theorem Keeps.of_reading {x : Except Fault (Parsed α n)} {a : α} (h : Keeps F Q ts x)
    (hr : reading x = .ok (a, rest)) : rest <:+ ts := by
  obtain ⟨p, hp, -, rfl⟩ := reading_eq_ok.1 hr
  exact h.suffix p hp

end Keeps

/-- A token that is taken stands in front of what is left. -/
theorem take?_cons_suffix {p : Token → Bool} {q : Parsed Token ts.length}
    (h : take? p ts = some q) : q.value :: q.rest <:+ ts :=
  ⟨[], (take?_eq_some_iff.1 h).2.symm⟩

theorem take?_suffix {p : Token → Bool} {q : Parsed Token ts.length} (h : take? p ts = some q) :
    q.rest <:+ ts :=
  (List.suffix_cons q.value q.rest).trans (take?_cons_suffix h)

theorem Grants.taken (hg : Grants F stop ts) {p : Token → Bool} {q : Parsed Token ts.length}
    (h : take? p ts = some q) : Blamable F q.value.pos :=
  hg.tokens _ ((take?_cons_suffix h).subset List.mem_cons_self)

/-- A token that is missing is missed at the token in its place. -/
theorem keeps_expect (hg : Grants F stop ts) (kind : Kind) (place : Place) :
    Keeps F Anything ts (expect stop kind place ts) := by
  unfold expect
  split
  · rename_i hq
    exact keeps_ok (take?_suffix hq) trivial
  · exact keeps_fail hg.current trivial

/-- A row keeps to its tokens if its items do, and what holds of each item holds of all of them. -/
theorem keeps_separated {close : Kind} {place : Place} {item : Parser α} {Q : α → Prop}
    (ts : List Token) (hg : Grants F stop ts) (hitem : KeepsTails F Q item ts) :
    Keeps F (fun as => ∀ a ∈ as, Q a) ts (separated stop close place item ts) := by
  rw [separated]
  split
  · rename_i hq
    exact keeps_ok (take?_suffix hq) (List.forall_mem_nil _)
  · refine (hitem ts (List.suffix_refl ts)).bind fun first hfirst hvalue => ?_
    split
    · rename_i comma hcomma
      have hs := take?_suffix hcomma
      have shorter : comma.rest.length < ts.length := Nat.lt_trans comma.shorter first.shorter
      refine Keeps.tail hs ?_
      refine (keeps_separated comma.rest (hg.suffix (hs.trans hfirst))
        (hitem.suffix (hs.trans hfirst))).bind fun more _ hmore => ?_
      exact keeps_ok (List.suffix_refl _) (List.forall_mem_cons.2 ⟨hvalue, hmore⟩)
    · split
      · rename_i hq
        exact keeps_ok (take?_suffix hq) (List.forall_mem_singleton.2 hvalue)
      · exact keeps_fail (hg.suffix hfirst).current trivial
termination_by ts.length
decreasing_by exact shorter

/-! ## Labels and selectors -/

theorem keeps_label (hg : Grants F stop ts) (place : Place) :
    Keeps F Anything ts (label stop place ts) := by
  unfold label
  split
  · rename_i hq
    exact keeps_ok (take?_suffix hq) trivial
  · exact keeps_fail hg.current trivial

theorem keeps_labelList (hg : Grants F stop ts) (place : Place) :
    Keeps F Anything ts (labelList stop place ts) := by
  refine (keeps_expect hg _ _).bind fun opening hopening _ => ?_
  refine (keeps_separated opening.rest (hg.suffix hopening) fun rest hrest =>
    keeps_label (hg.suffix (hrest.trans hopening)) _).bind fun labels _ _ => ?_
  exact keeps_ok (List.suffix_refl _) trivial

theorem keeps_matcher (hg : Grants F stop ts) (name : String) :
    Keeps F Anything ts (matcher stop name ts) := by
  unfold matcher
  simp only
  split
  · rename_i result hresult
    unfold quotedName? at hresult
    obtain ⟨t, ht, h⟩ := Option.bind_eq_some_iff.1 hresult
    simp only at h
    split at h
    · cases h
      split
      · exact keeps_ok (take?_suffix ht) trivial
      · exact keeps_fail (hg.taken ht) trivial
    · cases h
  · split
    · exact keeps_fail hg.current trivial
    · rename_i label hlabel
      have hg := hg.suffix (take?_suffix hlabel)
      split
      · exact keeps_fail hg.current trivial
      · rename_i op hop
        refine Keeps.tail ((take?_suffix hop).trans (take?_suffix hlabel)) ?_
        exact (keeps_expect (hg.suffix (take?_suffix hop)) _ _).bind fun value _ _ =>
          keeps_ok (List.suffix_refl _) trivial

/-- Conditions in braces make a selector at the place that they are given. -/
theorem keeps_conditions (hg : Grants F stop ts) (hpos : Blamable F pos) (name : String) :
    Keeps F (fun s => Blamable F s.pos) ts (conditions stop pos name ts) := by
  refine (keeps_separated ts hg fun rest hrest =>
    keeps_matcher (hg.suffix hrest) _).bind fun matchers _ _ => ?_
  refine .check (checkSelector_failsAmong hpos) fun s hs => ?_
  obtain ⟨rfl, -⟩ := checkSelector_eq_ok.1 hs
  exact keeps_ok (List.suffix_refl _) hpos

theorem keeps_selector (hg : Grants F stop ts) (hpos : Blamable F pos) (name : String) :
    Keeps F (fun s => Blamable F s.pos) ts (selector stop pos name ts) := by
  unfold selector
  split
  · refine .check (checkSelector_failsAmong hpos) fun s hs => ?_
    obtain ⟨rfl, -⟩ := checkSelector_eq_ok.1 hs
    exact keeps_ok (List.suffix_refl _) hpos
  · rename_i brace hbrace
    have hs := take?_suffix hbrace
    refine Keeps.tail hs ?_
    exact (keeps_conditions (hg.suffix hs) hpos _).bind fun s _ hvalue =>
      keeps_ok (List.suffix_refl _) hvalue

/-! ## Modifiers and ranges -/

theorem keeps_timestamp (hg : Grants F stop ts) : Keeps F Anything ts (timestamp stop ts) := by
  unfold timestamp
  split
  · rename_i hq
    exact keeps_ok (take?_suffix hq) trivial
  · split
    · rename_i sign hsign
      have hs := take?_suffix hsign
      refine Keeps.tail hs ?_
      exact (keeps_expect (hg.suffix hs) _ _).bind fun t _ _ =>
        keeps_ok (List.suffix_refl _) trivial
    · split
      · rename_i word hword
        have hs := take?_suffix hword
        refine Keeps.tail hs ?_
        refine (keeps_expect (hg.suffix hs) _ _).bind fun opening hopening _ => ?_
        exact (keeps_expect (hg.suffix (hopening.trans hs)) _ _).bind fun closing _ _ =>
          keeps_ok (List.suffix_refl _) trivial
      · exact keeps_fail hg.current trivial

theorem keeps_offset (hg : Grants F stop ts) : Keeps F Anything ts (offset stop ts) := by
  unfold offset
  split
  · rename_i sign hsign
    have hs := take?_suffix hsign
    refine Keeps.tail hs ?_
    exact (keeps_expect (hg.suffix hs) _ _).bind fun t _ _ => keeps_ok (List.suffix_refl _) trivial
  · exact (keeps_expect hg _ _).bind fun t _ _ => keeps_ok (List.suffix_refl _) trivial

/-- The step of a subquery leaves a tail of the tokens. -/
theorem subqueryStep_suffix (ts : List Token) : (subqueryStep ts).rest <:+ ts := by
  unfold subqueryStep
  split
  · rename_i hq
    exact take?_suffix hq
  · exact List.suffix_refl ts

/-- A tree whose place may be blamed. -/
def PlacedIn (F : Fault → Prop) (e : Expr) : Prop := Blamable F e.pos

/-- A range is placed where what it is taken of is placed. -/
theorem keeps_range (hg : Grants F stop ts) {start : Nat} (hstart : Blamable F start) {node : Expr}
    (hnode : PlacedIn F node) {calls : Nat} (hroom : HasRoom F node.typeCalls calls) :
    Keeps F (PlacedIn F) ts (range stop calls start node ts) := by
  refine (keeps_expect hg _ _).bind fun range hrange _ => ?_
  have hg := hg.suffix hrange
  split
  · rename_i colon hcolon
    have hs := (subqueryStep_suffix _).trans (take?_suffix hcolon)
    refine Keeps.tail hs ?_
    refine (keeps_expect (hg.suffix hs) _ _).bind fun closing _ _ => ?_
    refine .check (typeWithin_failsAmong hroom) fun type _ => ?_
    split
    · exact keeps_ok (List.suffix_refl _) hnode
    · exact keeps_fail hstart trivial
  · refine (keeps_expect hg _ _).bind fun closing _ _ => ?_
    split
    · exact keeps_ok (List.suffix_refl _) hnode
    · exact keeps_fail hstart trivial

/-- However many suffixes follow, the node that they make is placed among the tokens. -/
theorem keeps_suffixes {calls : Nat} {node : Expr} (ms : Modifiers) (ts : List Token)
    (hg : Grants F stop ts) (hnode : PlacedIn F node)
    (hroom : HasRoom F node.typeCalls (calls - 1)) :
    Keeps F (PlacedIn F) ts (suffixes stop calls node ms ts) := by
  rw [suffixes]
  split
  · rename_i bracket hbracket
    have hs := take?_suffix hbracket
    have hpos := hg.taken hbracket
    refine .check (checkRange_failsAmong hpos _ _ _) fun _ _ => ?_
    refine Keeps.tail hs ?_
    refine (keeps_range (hg.suffix hs) hpos hnode hroom).bind_of_eq
      fun inner heq hinner hvalue => ?_
    have shorter : inner.rest.length < ts.length := Nat.lt_trans inner.shorter bracket.shorter
    -- The type of what a range makes is known, so there is room for it where there was any.
    have hone := (ranged_of_reading (reading_eq_ok.2 ⟨inner, heq, rfl, rfl⟩)).typeCalls_eq
    have hnode' := node.typeCalls_pos
    have hnext : HasRoom F inner.value.typeCalls (calls - 1) := hroom.of_le fun _ => by omega
    exact (keeps_suffixes .none inner.rest (hg.suffix (hinner.trans hs)) hvalue hnext).bind
      fun outer _ hvalue => keeps_ok (List.suffix_refl _) hvalue
  · split
    · rename_i word hword
      have hs := take?_suffix hword
      refine .check (insert_failsAmong (hg.taken hword) _ _ _) fun ms _ => ?_
      refine Keeps.tail hs ?_
      refine (keeps_offset (hg.suffix hs)).bind fun amount hamount _ => ?_
      have shorter : amount.rest.length < ts.length := Nat.lt_trans amount.shorter word.shorter
      exact (keeps_suffixes ms amount.rest (hg.suffix (hamount.trans hs)) hnode hroom).bind
        fun outer _ hvalue => keeps_ok (List.suffix_refl _) hvalue
    · split
      · rename_i sign hsign
        have hs := take?_suffix hsign
        refine .check (insert_failsAmong (hg.taken hsign) _ _ _) fun ms _ => ?_
        refine Keeps.tail hs ?_
        refine (keeps_timestamp (hg.suffix hs)).bind fun time htime _ => ?_
        have shorter : time.rest.length < ts.length := Nat.lt_trans time.shorter sign.shorter
        exact (keeps_suffixes ms time.rest (hg.suffix (htime.trans hs)) hnode hroom).bind
          fun outer _ hvalue => keeps_ok (List.suffix_refl _) hvalue
      · exact keeps_ok (List.suffix_refl _) hnode
termination_by ts.length
decreasing_by all_goals exact shorter

/-! ## Binary expressions -/

theorem keeps_boolModifier (hg : Grants F stop ts) (op : BinaryOp) :
    Keeps F Anything ts (boolModifier op ts) := by
  unfold boolModifier
  split
  · exact keeps_ok (List.suffix_refl _) trivial
  · rename_i word hword
    split
    · exact keeps_ok (take?_suffix hword) trivial
    · exact keeps_fail (hg.taken hword) trivial

theorem keeps_vectorMatching (hg : Grants F stop ts) (op : BinaryOp) :
    Keeps F Anything ts (vectorMatching stop op ts) := by
  unfold vectorMatching
  split
  · exact keeps_ok (List.suffix_refl _) trivial
  · rename_i word hword
    have hs := take?_suffix hword
    refine Keeps.tail hs ?_
    refine (keeps_labelList (hg.suffix hs) _).bind fun labels hlabels _ => ?_
    have hg := hg.suffix (hlabels.trans hs)
    simp only
    split
    · exact keeps_ok (List.suffix_refl _) trivial
    · rename_i group hgroup
      have hs : group.rest <:+ labels.rest := take?_suffix hgroup
      split
      · exact keeps_fail (hg.taken hgroup) trivial
      · split
        · exact keeps_ok hs trivial
        · exact Keeps.tail hs ((keeps_labelList (hg.suffix hs) _).bind fun included _ _ =>
            keeps_ok (List.suffix_refl _) trivial)

/-- The right operands stand behind the first token. What the left operand needs for its type grows
with each of them by no more than the tokens taken. -/
theorem keeps_climb {calls : Nat} {expression : Nat → Parser Expr} {level : Nat}
    (hsized : ∀ level, Sized (expression level)) :
    (lhs : Expr) → (ts : List Token) → Grants F stop ts → PlacedIn F lhs →
      (∀ level, KeepsTails F (PlacedIn F) (expression level) ts.tail) →
      HasRoom F (lhs.typeCalls + ts.length) calls →
      Keeps F (PlacedIn F) ts (climb stop calls expression level lhs ts)
  | lhs, [], _, hlhs, _, _ => by
    rw [climb]
    exact keeps_ok (List.suffix_refl _) hlhs
  | lhs, t :: rest, hg, hlhs, he, hroom => by
    have hs := List.suffix_cons t rest
    have hpos := hg.tokens t List.mem_cons_self
    rw [climb]
    split
    · exact keeps_ok (List.suffix_refl _) hlhs
    · split
      · exact keeps_ok (List.suffix_refl _) hlhs
      · refine Keeps.tail hs ?_
        refine (keeps_boolModifier (hg.suffix hs) _).bind fun returnBool hreturn _ => ?_
        refine (keeps_vectorMatching (hg.suffix (hreturn.trans hs)) _).bind
          fun matching hmatching _ => ?_
        -- The operator is taken, so the right operand is one of those behind the first token.
        have hm := hmatching.trans hreturn
        refine (he _ _ hm).bind_of_eq fun rhs heq hrhs _ => ?_
        have hsize := hsized _ _ _ _ (reading_eq_ok.2 ⟨rhs, heq, rfl, rfl⟩)
        have hlength := hm.length_le
        simp only [List.length_cons] at hroom
        refine .check (checkBinary_failsAmong hpos _ (hroom.of_le fun _ => by omega)
          (hroom.of_le fun _ => by omega) _) fun node hcheck => ?_
        have hnode : PlacedIn F node := (checkBinary_eq_ok.1 hcheck).1 ▸ hpos
        have hcalls := typeCalls_le_of_checkBinary hcheck
        have hr := hrhs.trans hm
        have fewer : rhs.rest.length < (t :: rest).length :=
          Nat.lt_of_lt_of_le rhs.shorter (hm.trans hs).length_le
        exact (keeps_climb hsized node rhs.rest (hg.suffix (hr.trans hs)) hnode
          (fun level => (he level).suffix ((List.tail_suffix _).trans hr))
          (hroom.of_le fun _ => by omega)).bind fun outer _ hvalue =>
            keeps_ok (List.suffix_refl _) hvalue
termination_by _ ts => ts.length
decreasing_by exact fewer

/-! ## Calls and aggregations -/

section

variable {argument : Parser Expr}

/-- A call is placed at its name. -/
theorem keeps_call (hg : Grants F stop ts) {function : Token} (hpos : Blamable F function.pos)
    (ha : KeepsTails F (PlacedIn F) argument ts) :
    Keeps F (PlacedIn F) ts (call stop argument function ts) := by
  unfold call
  split
  · exact keeps_fail hpos trivial
  · rename_i s hs
    refine (keeps_expect hg _ _).bind fun opening hopening _ => ?_
    refine (keeps_separated _ (hg.suffix hopening) (ha.suffix hopening)).bind
      fun args _ hargs => ?_
    refine .check (checkCall_failsAmong hpos _ hargs) fun node hnode => ?_
    obtain ⟨rfl, -⟩ := (checkCall_eq_ok (mem_signatures hs).1).1 hnode
    exact keeps_ok (List.suffix_refl _) hpos

theorem keeps_grouping (hg : Grants F stop ts) : Keeps F Anything ts (grouping stop ts) := by
  unfold grouping
  split
  · exact keeps_ok (List.suffix_refl _) trivial
  · rename_i word hword
    have hs := take?_suffix hword
    refine Keeps.tail hs ?_
    exact (keeps_labelList (hg.suffix hs) _).bind fun labels _ _ =>
      keeps_ok (List.suffix_refl _) trivial

/-- An aggregation is placed at its name, wherever its grouping stands. -/
theorem keeps_aggregation (hg : Grants F stop ts) (hpos : Blamable F pos) (op : AggregateOp)
    (ha : KeepsTails F (PlacedIn F) argument ts) :
    Keeps F (PlacedIn F) ts (aggregation stop argument pos op ts) := by
  refine (keeps_grouping hg).bind fun leading hleading _ => ?_
  refine (keeps_expect (hg.suffix hleading) _ _).bind fun opening hopening _ => ?_
  have ho := hopening.trans hleading
  refine (keeps_separated _ (hg.suffix ho) (ha.suffix ho)).bind fun args hargs hvalues => ?_
  refine (keeps_grouping (hg.suffix (hargs.trans ho))).bind fun trailing _ _ => ?_
  split
  · exact keeps_fail hpos trivial
  · refine .check (checkAggregate_failsAmong hpos _ _ hvalues) fun node hnode => ?_
    obtain ⟨_, _, rfl, -⟩ := checkAggregate_eq_ok.1 hnode
    exact keeps_ok (List.suffix_refl _) hpos

/-! ## Operands and expressions -/

theorem keeps_named (hg : Grants F stop ts) {name : Token} (hpos : Blamable F name.pos)
    (ha : KeepsTails F (PlacedIn F) argument ts) :
    Keeps F (PlacedIn F) ts (named stop argument name ts) := by
  unfold named
  simp only
  split
  · exact (keeps_aggregation hg hpos _ ha).bind fun e _ hvalue =>
      keeps_ok (List.suffix_refl _) hvalue
  · split
    · exact (keeps_call hg hpos ha).bind fun e _ hvalue => keeps_ok (List.suffix_refl _) hvalue
    · split
      · exact keeps_ok (List.suffix_refl _) hpos
      · split
        · exact keeps_fail hpos trivial
        · exact (keeps_selector hg hpos _).bind fun s _ hvalue =>
            keeps_ok (List.suffix_refl _) hvalue

end

/-- A primary keeps to its tokens if what nests in it does, past the first token. -/
theorem keeps_primary {nested : Nat → Parser Expr} (hg : Grants F stop ts)
    (hn : ∀ between ≤ 3, KeepsTails F (PlacedIn F) (nested between) ts.tail) :
    Keeps F (PlacedIn F) ts (primary stop nested ts) := by
  unfold primary
  split
  · exact keeps_fail hg.finish trivial
  · rename_i t rest
    have hs := List.suffix_cons t rest
    have hpos := hg.tokens t List.mem_cons_self
    split
    case h_1 hk | h_2 hk =>
      split
      · exact keeps_ok hs hpos
      · rename_i fault hfault
        have hliteral : t.literal? = some (.error fault) :=
          (if_pos (by simp [hk])).trans (congrArg some hfault)
        exact keeps_error (hg.literals t List.mem_cons_self fault hliteral)
    · exact keeps_ok hs hpos
    · refine Keeps.tail hs ?_
      refine (hn 1 (by decide) _ (List.suffix_refl _)).bind fun inner hinner _ => ?_
      exact (keeps_expect (hg.suffix (hinner.trans hs)) _ _).bind fun closing _ _ =>
        keeps_ok (List.suffix_refl _) hpos
    · refine Keeps.tail hs ?_
      exact (keeps_conditions (hg.suffix hs) hpos _).bind fun s _ hvalue =>
        keeps_ok (List.suffix_refl _) hvalue
    · exact Keeps.tail hs (keeps_named (hg.suffix hs) hpos (hn 3 (by decide)))
    · exact keeps_fail hpos trivial

/-- What a sign makes of an operand is placed at the sign. -/
theorem placedIn_of_applySign {sign : Sign} {e node : Expr} (hpos : Blamable F pos)
    (h : applySign pos sign e = .ok node) : PlacedIn F node := by
  obtain ⟨-, ⟨_, _, _, -, -, rfl⟩ | ⟨-, rfl⟩⟩ := applySign_eq_ok.1 h <;> exact hpos

/-- The tokens behind a sign hold a number that the sign can be applied to. -/
theorem keeps_operandWith {calls : Nat} {operand : Parser Expr} {nested : Nat → Parser Expr}
    (hg : Grants F stop ts) (ho : KeepsTails F (PlacedIn F) operand ts.tail)
    (hn : ∀ between ≤ 3, KeepsTails F (PlacedIn F) (nested between) ts.tail)
    (hnumber : ∀ rest e rest', Reads operand rest e rest' → NumberOf rest e)
    (hsized : Sized (nested 1)) (hroom : HasRoom F ts.length (calls - 2)) :
    Keeps F (PlacedIn F) ts (operandWith stop calls operand nested ts) := by
  unfold operandWith
  split
  · rename_i sign hsign
    obtain ⟨hs, hts⟩ := take?_eq_some_iff.1 hsign
    have hpos := hg.taken hsign
    have htail : ts.tail = sign.rest := congrArg List.tail hts
    refine Keeps.tail (take?_suffix hsign) ?_
    refine (ho sign.rest (htail ▸ List.suffix_refl ts.tail)).bind_of_eq fun e heq _ _ => ?_
    refine .check (applySign_failsAmong hpos fun p value fault hvalue hfault => ?_)
      fun node hnode => keeps_ok (List.suffix_refl _) (placedIn_of_applySign hpos hnode)
    have hread : Reads operand sign.rest e.value e.rest := reading_eq_ok.2 ⟨e, heq, rfl, rfl⟩
    rcases hnumber _ _ _ hread p value hvalue with ⟨x, rfl⟩ | ⟨u, hu, hliteral⟩
    · cases hfault
    -- The number is the literal right behind the sign.
    · obtain ⟨us, hus⟩ := List.head?_eq_some_iff.1 hu
      have hsigned := take?_cons_suffix hsign
      rw [hus] at hsigned
      exact hg.signed sign.value u us hsigned hs value fault hliteral hfault
  · refine (keeps_primary hg hn).bind_of_eq fun inner heq hinner hvalue => ?_
    have hsize := sized_primary hsized _ _ _ (reading_eq_ok.2 ⟨inner, heq, rfl, rfl⟩)
    exact (keeps_suffixes _ _ (hg.suffix hinner) hvalue (hroom.of_le fun _ => by omega)).bind
      fun outer _ hvalue => keeps_ok (List.suffix_refl _) hvalue

theorem tail_suffix_tail (h : rest <:+ ts) : rest.tail <:+ ts.tail := by
  obtain ⟨front, rfl⟩ := h
  cases front with
  | nil => exact List.suffix_rfl
  | cons t front => exact (List.tail_suffix rest).trans (List.suffix_append front rest)

/-- An expression keeps to its tokens if its operands do; past the first of them, a token has been
taken. -/
theorem keeps_expressionWith {calls : Nat} {operand : Parser Expr}
    {expression : Nat → Parser Expr} {level : Nat} (hg : Grants F stop ts)
    (ho : Keeps F (PlacedIn F) ts (operand ts))
    (he : ∀ level, KeepsTails F (PlacedIn F) (expression level) ts.tail)
    (hosized : Sized operand) (hesized : ∀ level, Sized (expression level))
    (hroom : HasRoom F ts.length calls) :
    Keeps F (PlacedIn F) ts (expressionWith stop calls operand expression level ts) := by
  refine ho.bind_of_eq fun lhs heq hlhs hvalue => ?_
  have hsize := hosized _ _ _ (reading_eq_ok.2 ⟨lhs, heq, rfl, rfl⟩)
  exact (keeps_climb hesized lhs.value lhs.rest (hg.suffix hlhs) hvalue
    (fun level => (he level).suffix (tail_suffix_tail hlhs)) (hroom.of_le hsize.trans)).bind
      fun _ _ hvalue => keeps_ok (List.suffix_refl _) hvalue

/-- An operand that is a number is a double, or the first of its tokens is its literal, whatever
the limit. -/
theorem operand_number {calls : Nat} {e : Expr} (h : Reads (operand stop calls) ts e rest) :
    NumberOf ts e := by
  cases calls with
  | zero =>
    rw [Reads, operand_zero] at h
    exact absurd h fail_ne_ok
  | succ calls =>
    rw [Reads, operand] at h
    exact operandWith_number h

/-- What the two recursive parsers leave within every limit, and how they fail. -/
theorem levels_keep (hg : Grants F stop ts) (hdeep : F (.malformed ⟨.tooDeep, 0⟩)) (calls : Nat) :
    KeepsTails F (PlacedIn F) (operand stop calls) ts ∧
      ∀ level, KeepsTails F (PlacedIn F) (expression stop calls level) ts := by
  induction calls using Nat.strongRecOn with
  | ind calls ih =>
    cases calls with
    | zero =>
      refine ⟨fun rest _ => ?_, fun level rest _ => ?_⟩
      · rw [operand_zero]
        exact keeps_error hdeep
      · rw [expression_zero]
        exact keeps_error hdeep
    | succ calls =>
      obtain ⟨iho, ihe⟩ := ih calls (Nat.lt_succ_self calls)
      have hsized := levels_sized stop calls
      refine ⟨fun rest hr => ?_, fun level rest hr => ?_⟩
      · have ht := (List.tail_suffix rest).trans hr
        have hn : ∀ between ≤ 3,
            KeepsTails F (PlacedIn F) (expression stop (calls - between) 0) rest.tail :=
          fun between _ =>
            ((ih (calls - between) (Nat.lt_succ_of_le (Nat.sub_le ..))).2 0).suffix ht
        rw [operand]
        exact keeps_operandWith (hg.suffix hr) (iho.suffix ht) hn (fun _ _ _ => operand_number)
          ((levels_sized stop (calls - 1)).2 0) (.inl hdeep)
      · rw [expression]
        exact keeps_expressionWith (hg.suffix hr) (iho rest hr)
          (fun level => (ihe level).suffix ((List.tail_suffix rest).trans hr)) hsized.1 hsized.2
          (.inl hdeep)

/-- A row of tokens fails only as the reading of an expression does, or at a token that is left. -/
theorem parseTokens_failsAmong_of_keeps (hg : Grants F stop ts)
    {limit : Nat} (hread : Keeps F (PlacedIn F) ts (expression stop limit 0 ts)) :
    FailsAmong F (parseTokens stop ts limit) := by
  refine failsAmong_test hg.finish trivial (hread.faults.bind fun e he => ?_)
  split
  · exact failsAmong_ok _
  · rename_i t rest hrest
    refine failsAmong_fail (hg.tokens t ?_) trivial
    exact (hread.suffix e he).subset (hrest ▸ List.mem_cons_self)

/-- Within every limit a row of tokens fails only as its tokens and the end of the text grant, or
because it nests too deeply. -/
theorem parseTokens_failsAmong (hg : Grants F stop ts) (hdeep : F (.malformed ⟨.tooDeep, 0⟩))
    (limit : Nat) : FailsAmong F (parseTokens stop ts limit) :=
  parseTokens_failsAmong_of_keeps hg ((levels_keep hg hdeep limit).2 0 ts (List.suffix_refl ts))

end PanelExport.Query
