import PanelExport.Proofs.Query.Blame

/-!
# The way through the tokens

The parsers go through the tokens from the front to the end. Whatever a parser is given, what it
leaves is a tail of that, so the place where the parser stands never moves back, and there is always
a token there or the mark at the end. The loops of the grammar are told by their bodies: a turn
leaves the loop, or goes round with at least one token less.

* `Onward`, `onward_of_suffix`: from some tokens to others further on.
* `grammar_forward`: every parser of the grammar goes forward.
* `Loops`: a parser is the loop of a body, every turn of which takes a token or leaves the loop.
* `rounds_le`: a loop goes round no more often than there are tokens.
* `separated_loops`, `suffixes_loops`, `climb_loops`: the loops of the grammar.
-/

namespace PanelExport.Query

variable {α σ β : Type} {stop : Nat} {whole ts rest : List Token}

/-! ## Places -/

/-- The number of tokens in front of those that are left, which is where a parser stands. -/
def index (whole rest : List Token) : Nat := whole.length - rest.length

/-- The tokens left are a tail of those before, so a parser stands no nearer to the front than
before, and at a token or at the mark at the end. -/
structure Onward (stop : Nat) (whole ts rest : List Token) : Prop where
  tail : rest <:+ ts
  index_le : index whole ts ≤ index whole rest
  valid : (whole ++ [.finish stop])[index whole rest]? = some (current stop rest)

/-- Whatever is left of the tokens lies onward. -/
theorem onward_of_suffix (hts : ts <:+ whole) (h : rest <:+ ts) : Onward stop whole ts rest where
  tail := h
  index_le := Nat.sub_le_sub_left h.length_le _
  valid := by
    obtain ⟨front, rfl⟩ := h.trans hts
    have hindex : index (front ++ rest) rest = front.length := by simp [index]
    rw [hindex, List.append_assoc, List.getElem?_append_right (Nat.le_refl _), Nat.sub_self]
    cases rest <;> rfl

/-- From any tokens on, and wherever these stand among all tokens, a parser goes onward. -/
def Forward (stop : Nat) (read : List Token → Except Fault (α × List Token)) : Prop :=
  ∀ whole ts a rest, ts <:+ whole → read ts = .ok (a, rest) → Onward stop whole ts rest

/-- A reader goes forward if it leaves a tail of its tokens. -/
theorem forward_of_tail {read : List Token → Except Fault (α × List Token)}
    (h : ∀ ts a rest, read ts = .ok (a, rest) → rest <:+ ts) : Forward stop read :=
  fun _ ts a rest hts hread => onward_of_suffix hts (h ts a rest hread)

theorem Forward.tail {read : List Token → Except Fault (α × List Token)} (h : Forward stop read)
    {a : α} (hread : read ts = .ok (a, rest)) : rest <:+ ts :=
  (h ts ts a rest List.suffix_rfl hread).tail

/-- A parser that keeps to its tokens goes forward. -/
theorem forward_of_keeps {bound : List Token → Nat} {Q : α → Prop}
    {p : (ts : List Token) → Except Fault (Parsed α (bound ts))}
    (h : ∀ ts, Keeps (fun _ => True) Q ts (p ts)) : Forward stop fun ts => reading (p ts) :=
  forward_of_tail fun ts _ _ => (h ts).of_reading

/-- What a parser that goes forward leaves is a tail of what it was given. -/
theorem Forward.rest_suffix {bound : List Token → Nat}
    {p : (ts : List Token) → Except Fault (Parsed α (bound ts))}
    (hp : Forward stop fun ts => reading (p ts)) {r : Parsed α (bound ts)} (h : p ts = .ok r) :
    r.rest <:+ ts :=
  hp.tail (reading_eq_ok.2 ⟨r, h, rfl, rfl⟩)

/-- All parsers of the grammar, within a limit for what nests in them, go forward. -/
structure GrammarForward (stop calls : Nat) : Prop where
  expect : ∀ kind place, Forward stop fun ts => reading (expect stop kind place ts)
  label : ∀ place, Forward stop fun ts => reading (label stop place ts)
  labelList : ∀ place, Forward stop fun ts => reading (labelList stop place ts)
  matcher : ∀ name, Forward stop fun ts => reading (matcher stop name ts)
  conditions : ∀ pos name, Forward stop fun ts => reading (conditions stop pos name ts)
  selector : ∀ pos name, Forward stop fun ts => reading (selector stop pos name ts)
  timestamp : Forward stop fun ts => reading (timestamp stop ts)
  offset : Forward stop fun ts => reading (offset stop ts)
  range : ∀ start node, Forward stop fun ts => reading (range stop calls start node ts)
  suffixes : ∀ node ms, Forward stop fun ts => reading (suffixes stop calls node ms ts)
  boolModifier : ∀ op, Forward stop fun ts => reading (boolModifier op ts)
  vectorMatching : ∀ op, Forward stop fun ts => reading (vectorMatching stop op ts)
  climb : ∀ level lhs, Forward stop fun ts =>
    reading (climb stop calls (expression stop calls) level lhs ts)
  call : ∀ function, Forward stop fun ts =>
    reading (call stop (expression stop calls 0) function ts)
  grouping : Forward stop fun ts => reading (grouping stop ts)
  aggregation : ∀ pos op, Forward stop fun ts =>
    reading (aggregation stop (expression stop calls 0) pos op ts)
  named : ∀ name, Forward stop fun ts => reading (named stop (expression stop calls 0) name ts)
  primary : Forward stop fun ts =>
    reading (primary stop (fun between => expression stop (calls - between) 0) ts)
  operand : Forward stop fun ts => reading (operand stop calls ts)
  expression : ∀ level, Forward stop fun ts => reading (expression stop calls level ts)

/-- Within every limit the parsers leave a tail of what they are given. -/
theorem levels_tails (stop calls : Nat) (ts : List Token) :
    KeepsTails (fun _ => True) (PlacedIn fun _ => True) (operand stop calls) ts ∧
      ∀ level,
        KeepsTails (fun _ => True) (PlacedIn fun _ => True) (expression stop calls level) ts :=
  levels_keep (grants_any stop ts) trivial calls

/-- Every parser of the grammar goes forward, whatever nests in it. -/
theorem grammar_forward (stop calls : Nat) : GrammarForward stop calls := by
  have hg := grants_any stop
  have ho := fun ts => (levels_tails stop calls ts).1
  have he := fun calls level ts => (levels_tails stop calls ts).2 level
  exact {
    expect := fun kind place => forward_of_keeps fun ts => keeps_expect (hg ts) kind place
    label := fun place => forward_of_keeps fun ts => keeps_label (hg ts) place
    labelList := fun place => forward_of_keeps fun ts => keeps_labelList (hg ts) place
    matcher := fun name => forward_of_keeps fun ts => keeps_matcher (hg ts) name
    conditions := fun pos name => forward_of_keeps fun ts =>
      keeps_conditions (hg ts) blamable_any name
    selector := fun pos name => forward_of_keeps fun ts => keeps_selector (hg ts) blamable_any name
    timestamp := forward_of_keeps fun ts => keeps_timestamp (hg ts)
    offset := forward_of_keeps fun ts => keeps_offset (hg ts)
    range := fun start node => forward_of_keeps fun ts =>
      keeps_range (hg ts) blamable_any blamable_any (hasRoom_any _ _)
    suffixes := fun node ms => forward_of_keeps fun ts =>
      keeps_suffixes ms ts (hg ts) blamable_any (hasRoom_any _ _)
    boolModifier := fun op => forward_of_keeps fun ts => keeps_boolModifier (hg ts) op
    vectorMatching := fun op => forward_of_keeps fun ts => keeps_vectorMatching (hg ts) op
    climb := fun level lhs => forward_of_keeps fun ts =>
      keeps_climb (levels_sized stop calls).2 lhs ts (hg ts) blamable_any
        (fun level => he calls level _) (hasRoom_any _ _)
    call := fun function => forward_of_keeps fun ts =>
      keeps_call (hg ts) blamable_any (he calls 0 ts)
    grouping := forward_of_keeps fun ts => keeps_grouping (hg ts)
    aggregation := fun pos op => forward_of_keeps fun ts =>
      keeps_aggregation (hg ts) blamable_any op (he calls 0 ts)
    named := fun name => forward_of_keeps fun ts =>
      keeps_named (hg ts) blamable_any (he calls 0 ts)
    primary := forward_of_keeps fun ts => keeps_primary (hg ts) fun _ _ => he _ 0 _
    operand := forward_of_keeps fun ts => ho ts ts List.suffix_rfl
    expression := fun level => forward_of_keeps fun ts => he calls level ts ts List.suffix_rfl }

/-! ## Loops -/

/-- What a turn of a loop comes to: the loop is left with a value, or it goes on with another
state. -/
inductive Turn (σ β : Type) where
  | leave (value : β)
  | again (state : σ)

/-- What is read from a turn on: the value that the loop is left with, or what the next turns
read. -/
def Turn.goOn (run : σ → List Token → Except Fault (β × List Token)) :
    Turn σ β × List Token → Except Fault (β × List Token)
  | (.leave value, ts) => .ok (value, ts)
  | (.again s, ts) => run s ts

/-- A turn leaves a tail of the tokens, and a shorter one if the loop goes on. -/
def Turn.Takes : Turn σ β → List Token → List Token → Prop
  | .leave _, ts, rest => rest <:+ ts
  | .again _, ts, rest => rest <:+ ts ∧ rest.length < ts.length

section Loops

variable {body : σ → List Token → Except Fault (Turn σ β × List Token)}
  {run : σ → List Token → Except Fault (β × List Token)}

/-- So many turns of a loop, none of which leaves it. -/
inductive Rounds (body : σ → List Token → Except Fault (Turn σ β × List Token)) :
    Nat → σ → List Token → σ → List Token → Prop where
  | none (s : σ) (ts : List Token) : Rounds body 0 s ts s ts
  | more {n : Nat} {s s' s'' : σ} {ts ts' ts'' : List Token} (before : Rounds body n s ts s' ts')
      (turn : body s' ts' = .ok (.again s'', ts'')) : Rounds body (n + 1) s ts s'' ts''

/-- A parser is the loop of a body. Every turn goes onward, and it takes at least one token if it
does not leave the loop, so the loop goes round no more often than there are tokens. -/
structure Loops (stop : Nat) (body : σ → List Token → Except Fault (Turn σ β × List Token))
    (run : σ → List Token → Except Fault (β × List Token)) : Prop where
  unrolled : ∀ s ts, run s ts = body s ts >>= Turn.goOn run
  forward : ∀ s, Forward stop (body s)
  takes : ∀ s ts s' rest, body s ts = .ok (.again s', rest) → rest.length < ts.length
  ends : ∀ n s ts s' rest, Rounds body n s ts s' rest → n + rest.length ≤ ts.length

/-- There are no more rounds than tokens. -/
theorem rounds_le (takes : ∀ s ts s' rest, body s ts = .ok (.again s', rest) →
    rest.length < ts.length) {n : Nat} {s s' : σ} (h : Rounds body n s ts s' rest) :
    n + rest.length ≤ ts.length := by
  induction h with
  | none => exact Nat.le_of_eq (Nat.zero_add _)
  | more _ hturn ih =>
    have := takes _ _ _ _ hturn
    omega

theorem loops_of_takes (unrolled : ∀ s ts, run s ts = body s ts >>= Turn.goOn run)
    (takes : ∀ s ts turn rest, body s ts = .ok (turn, rest) → turn.Takes ts rest) :
    Loops stop body run := by
  have htakes : ∀ s ts s' rest, body s ts = .ok (.again s', rest) → rest.length < ts.length :=
    fun s ts s' rest h => (takes s ts (.again s') rest h).2
  refine ⟨unrolled, fun s => forward_of_tail fun ts turn rest h => ?_, htakes,
    fun _ _ _ _ _ => rounds_le htakes⟩
  have hturn := takes s ts turn rest h
  cases turn with
  | leave value => exact hturn
  | again s' => exact hturn.1

end Loops

/-! ### Items -/

section Separated

variable {close : Kind} {place : Place} {item : Parser α}

/-- One turn over the items in front of a closing token: an item, and the comma behind it or the
closing token, which is left for the next turn. -/
def separatedTurn (stop : Nat) (close : Kind) (place : Place) (item : Parser α) (as : List α)
    (ts : List Token) : Except Fault (Turn (List α) (List α) × List Token) :=
  match take? (·.kind == close) ts with
  | some t => .ok (.leave as, t.rest)
  | none => do
    let (a, ts) ← reading (item ts)
    match take? (·.kind == .comma) ts with
    | some comma => return (.again (as ++ [a]), comma.rest)
    | none =>
      if (take? (·.kind == close) ts).isSome then return (.again (as ++ [a]), ts)
      else
        let found := current stop ts
        fail (.unexpectedIn found place (.separator close)) found.pos

/-- The items that stand in front of a closing token, behind those that were taken before. -/
def separatedFrom (stop : Nat) (close : Kind) (place : Place) (item : Parser α) (as : List α)
    (ts : List Token) : Except Fault (List α × List Token) :=
  (reading (separated stop close place item ts)).map fun (more, rest) => (as ++ more, rest)

theorem separatedFrom_nil {α : Type} (close : Kind) (place : Place) (item : Parser α)
    (ts : List Token) :
    separatedFrom stop close place item [] ts = reading (separated stop close place item ts) := by
  rw [separatedFrom]
  cases reading (separated stop close place item ts) <;> rfl

theorem separatedFrom_closed (as : List α) {t : Parsed Token ts.length}
    (h : take? (·.kind == close) ts = some t) :
    separatedFrom stop close place item as ts = .ok (as, t.rest) := by
  rw [separatedFrom, reading_separated, h]
  simp [Except.map]

/-- A row goes on as one round says. -/
theorem separated_unrolled (as : List α) (ts : List Token) :
    separatedFrom stop close place item as ts =
      separatedTurn stop close place item as ts >>=
        Turn.goOn (separatedFrom stop close place item) := by
  cases hclose : take? (·.kind == close) ts with
  | some t =>
    rw [separatedFrom_closed as hclose, separatedTurn, hclose]
    rfl
  | none =>
    rw [separatedFrom, reading_separated, separatedTurn, hclose]
    simp only
    cases hitem : reading (item ts) with
    | error fault => rfl
    | ok p =>
      obtain ⟨a, mid⟩ := p
      simp only [bind, Except.bind]
      cases take? (·.kind == .comma) mid with
      | some comma =>
        simp only [Turn.goOn, separatedFrom, pure, Except.pure]
        cases reading (separated stop close place item comma.rest) with
        | error fault => rfl
        | ok q => simp [Except.map]
      | none =>
        cases hmid : take? (·.kind == close) mid with
        | some t =>
          simp only [Option.isSome_some, if_true, Turn.goOn, pure, Except.pure]
          rw [separatedFrom_closed _ hmid]
          rfl
        | none => rfl

/-- A round in a row that goes on takes a token. -/
theorem separatedTurn_takes (hitem : Forward stop fun ts => reading (item ts)) {as : List α}
    {turn : Turn (List α) (List α)}
    (h : separatedTurn stop close place item as ts = .ok (turn, rest)) : turn.Takes ts rest := by
  unfold separatedTurn at h
  split at h
  · rename_i hclose
    cases h
    exact take?_suffix hclose
  · obtain ⟨⟨a, mid⟩, hread, h⟩ := bind_eq_ok.1 h
    have hmid := hitem.tail hread
    have hlength := length_lt_of_reading hread
    simp only at h
    split at h
    · rename_i comma hcomma
      cases h
      have hrest := take?_suffix hcomma
      exact ⟨hrest.trans hmid, Nat.lt_of_le_of_lt hrest.length_le hlength⟩
    · split at h
      · cases h
        exact ⟨hmid, hlength⟩
      · exact absurd h fail_ne_ok

/-- Items with commas between them are taken in a loop. -/
theorem separated_loops (hitem : Forward stop fun ts => reading (item ts)) :
    Loops stop (separatedTurn stop close place item) (separatedFrom stop close place item) :=
  loops_of_takes separated_unrolled fun _ _ _ _ => separatedTurn_takes hitem

end Separated

/-! ### Suffixes -/

/-- One turn over the ranges and modifiers behind a node. -/
def suffixTurn (stop calls : Nat) (state : Expr × Modifiers) (ts : List Token) :
    Except Fault (Turn (Expr × Modifiers) Expr × List Token) :=
  let (node, ms) := state
  match take? (·.kind == .leftBracket) ts with
  | some bracket => do
    checkRange ms node bracket.value.pos ts
    let (inner, ts) ← reading (range stop (calls - 1) bracket.value.pos node bracket.rest)
    return (.again (inner, .none), ts)
  | none =>
    match take? (·.isWord ["offset"]) ts with
    | some word => do
      let ms ← ms.insert .offset node word.value.pos
      let (_, ts) ← reading (offset stop word.rest)
      return (.again (node, ms), ts)
    | none =>
      match take? (·.kind == .atSign) ts with
      | some sign => do
        let ms ← ms.insert .atSign node sign.value.pos
        let (_, ts) ← reading (timestamp stop sign.rest)
        return (.again (node, ms), ts)
      | none => .ok (.leave node, ts)

theorem suffixes_unrolled (calls : Nat) (state : Expr × Modifiers) (ts : List Token) :
    reading (suffixes stop calls state.1 state.2 ts) =
      suffixTurn stop calls state ts >>=
        Turn.goOn fun state ts => reading (suffixes stop calls state.1 state.2 ts) := by
  obtain ⟨node, ms⟩ := state
  rw [reading_suffixes, suffixTurn]
  simp only
  cases take? (·.kind == .leftBracket) ts with
  | some bracket =>
    simp only
    cases checkRange ms node bracket.value.pos ts with
    | error fault => rfl
    | ok _ =>
      simp only [bind, Except.bind]
      cases reading (range stop (calls - 1) bracket.value.pos node bracket.rest) <;> rfl
  | none =>
    simp only
    cases take? (·.isWord ["offset"]) ts with
    | some word =>
      simp only
      cases ms.insert .offset node word.value.pos with
      | error fault => rfl
      | ok ms =>
        simp only [bind, Except.bind]
        cases reading (offset stop word.rest) <;> rfl
    | none =>
      simp only
      cases take? (·.kind == .atSign) ts with
      | some sign =>
        simp only
        cases ms.insert .atSign node sign.value.pos with
        | error fault => rfl
        | ok ms =>
          simp only [bind, Except.bind]
          cases reading (timestamp stop sign.rest) <;> rfl
      | none => rfl

/-- What a turn reads behind the token that it takes is shorter than what it was given. -/
theorem takes_of_taken {p : Token → Bool} {t : Parsed Token ts.length} (ht : take? p ts = some t)
    (hrest : rest <:+ t.rest) : rest <:+ ts ∧ rest.length < ts.length :=
  ⟨hrest.trans (take?_suffix ht), Nat.lt_of_le_of_lt hrest.length_le t.shorter⟩

/-- A suffix takes a token. -/
theorem suffixTurn_takes {calls : Nat} {state : Expr × Modifiers}
    {turn : Turn (Expr × Modifiers) Expr} (h : suffixTurn stop calls state ts = .ok (turn, rest)) :
    turn.Takes ts rest := by
  obtain ⟨node, ms⟩ := state
  have hg := grammar_forward stop (calls - 1)
  unfold suffixTurn at h
  simp only at h
  split at h
  · rename_i bracket hbracket
    obtain ⟨_, -, h⟩ := bind_eq_ok.1 h
    obtain ⟨⟨inner, mid⟩, hread, h⟩ := bind_eq_ok.1 h
    cases h
    exact takes_of_taken hbracket ((hg.range _ _).tail hread)
  · split at h
    · rename_i word hword
      obtain ⟨_, -, h⟩ := bind_eq_ok.1 h
      obtain ⟨⟨amount, mid⟩, hread, h⟩ := bind_eq_ok.1 h
      cases h
      exact takes_of_taken hword (hg.offset.tail hread)
    · split at h
      · rename_i sign hsign
        obtain ⟨_, -, h⟩ := bind_eq_ok.1 h
        obtain ⟨⟨time, mid⟩, hread, h⟩ := bind_eq_ok.1 h
        cases h
        exact takes_of_taken hsign (hg.timestamp.tail hread)
      · cases h
        exact List.suffix_rfl

/-- The suffixes behind a node are taken in a loop. -/
theorem suffixes_loops (calls : Nat) :
    Loops stop (suffixTurn stop calls) fun state ts =>
      reading (suffixes stop calls state.1 state.2 ts) :=
  loops_of_takes (suffixes_unrolled calls) fun _ _ _ _ => suffixTurn_takes

/-! ### Operators -/

section Climb

variable {calls : Nat} {expression : Nat → Parser Expr} {level : Nat}

/-- One turn over the operators behind a left operand, with the right operand. -/
def climbTurn (stop calls : Nat) (expression : Nat → Parser Expr) (level : Nat) (lhs : Expr)
    (ts : List Token) : Except Fault (Turn Expr Expr × List Token) :=
  match ts with
  | [] => .ok (.leave lhs, [])
  | t :: rest =>
    match binaryOp? t with
    | none => .ok (.leave lhs, t :: rest)
    | some op =>
      if op.precedence < level then .ok (.leave lhs, t :: rest)
      else do
        let (returnBool, ts) ← reading (boolModifier op rest)
        let (_, ts) ← reading (vectorMatching stop op ts)
        let (rhs, ts) ← reading (expression op.rightLevel ts)
        let node ← checkBinary (calls - 1) t.pos op lhs rhs returnBool
        return (.again node, ts)

theorem climb_unrolled (lhs : Expr) (ts : List Token) :
    reading (climb stop calls expression level lhs ts) =
      climbTurn stop calls expression level lhs ts >>=
        Turn.goOn fun lhs ts => reading (climb stop calls expression level lhs ts) := by
  cases ts with
  | nil =>
    rw [climb, climbTurn]
    rfl
  | cons t ts =>
    rw [reading_climb, climbTurn]
    simp only
    cases binaryOp? t with
    | none => rfl
    | some op =>
      simp only
      split
      · rfl
      · cases reading (boolModifier op ts) with
        | error fault => rfl
        | ok returnBool =>
          simp only [bind, Except.bind]
          cases reading (vectorMatching stop op returnBool.2) with
          | error fault => rfl
          | ok matching =>
            simp only
            cases reading (expression op.rightLevel matching.2) with
            | error fault => rfl
            | ok rhs =>
              simp only
              cases checkBinary (calls - 1) t.pos op lhs rhs.1 returnBool.1 <;> rfl

/-- An operator takes a token. -/
theorem climbTurn_takes (he : ∀ level, Forward stop fun ts => reading (expression level ts))
    {lhs : Expr} {turn : Turn Expr Expr}
    (h : climbTurn stop calls expression level lhs ts = .ok (turn, rest)) :
    turn.Takes ts rest := by
  have hg := grammar_forward stop 0
  unfold climbTurn at h
  split at h
  · cases h
    exact List.suffix_rfl
  · rename_i t ts
    split at h
    · cases h
      exact List.suffix_rfl
    · split at h
      · cases h
        exact List.suffix_rfl
      · obtain ⟨⟨returnBool, ts₁⟩, hbool, h⟩ := bind_eq_ok.1 h
        obtain ⟨⟨_, ts₂⟩, hmatching, h⟩ := bind_eq_ok.1 h
        obtain ⟨⟨rhs, ts₃⟩, hrhs, h⟩ := bind_eq_ok.1 h
        obtain ⟨node, -, h⟩ := bind_eq_ok.1 h
        cases h
        have hrest : rest <:+ ts := ((he _).tail hrhs).trans
          (((hg.vectorMatching _).tail hmatching).trans ((hg.boolModifier _).tail hbool))
        exact ⟨hrest.trans (List.suffix_cons t ts), Nat.lt_succ_of_le hrest.length_le⟩

/-- The operators behind a left operand are taken in a loop. -/
theorem climb_loops (he : ∀ level, Forward stop fun ts => reading (expression level ts)) :
    Loops stop (climbTurn stop calls expression level) fun lhs ts =>
      reading (climb stop calls expression level lhs ts) :=
  loops_of_takes climb_unrolled fun _ _ _ _ => climbTurn_takes he

end Climb

/-- The loops of the grammar, within a limit for what nests in them: the operators of an expression,
the suffixes of an operand, the conditions of a selector, and the items of a list of labels, of an
aggregation and of a call. -/
structure GrammarLoops (stop calls : Nat) : Prop where
  start : ∀ {α : Type} close place (item : Parser α) ts,
    separatedFrom stop close place item [] ts = reading (separated stop close place item ts)
  operators : ∀ level, Loops stop (climbTurn stop calls (expression stop calls) level)
    fun lhs ts => reading (climb stop calls (expression stop calls) level lhs ts)
  suffixes : Loops stop (suffixTurn stop calls) fun state ts =>
    reading (suffixes stop calls state.1 state.2 ts)
  conditions : ∀ name, Loops stop (separatedTurn stop .rightBrace .matching (matcher stop name))
    (separatedFrom stop .rightBrace .matching (matcher stop name))
  labels : ∀ place, Loops stop (separatedTurn stop .rightParen place (label stop place))
    (separatedFrom stop .rightParen place (label stop place))
  aggregated : Loops stop
    (separatedTurn stop .rightParen .aggregation (expression stop calls 0))
    (separatedFrom stop .rightParen .aggregation (expression stop calls 0))
  arguments : Loops stop (separatedTurn stop .rightParen .call (expression stop calls 0))
    (separatedFrom stop .rightParen .call (expression stop calls 0))

/-- All loops of the grammar go forward, and take a token in each round but the last one. -/
theorem grammar_loops (stop calls : Nat) : GrammarLoops stop calls := by
  have hg := grammar_forward stop calls
  exact {
    start := separatedFrom_nil
    operators := fun _ => climb_loops hg.expression
    suffixes := suffixes_loops calls
    conditions := fun name => separated_loops (hg.matcher name)
    labels := fun place => separated_loops (hg.label place)
    aggregated := separated_loops (hg.expression 0)
    arguments := separated_loops (hg.expression 0) }

end PanelExport.Query
