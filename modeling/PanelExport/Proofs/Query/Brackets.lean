import PanelExport.Proofs.Query.Insertion

/-!
# Braces and brackets

The lexer counts the braces and the brackets that are open, and what a colon, an equals sign or a
name is depends on the counts. So the tokens of a text tell the counts: they are what the tokens
before a place leave open. What stands in texts and comments is not counted.

* `takeStep_moves`: what a step takes in a context, and the context behind it.
* `Follows.depth_add`: the tokens of a run tell how much more is open behind them.
* `balanced_exposed`: outside of texts and comments the marks of a text are balanced.
* `tokenize_enclosed`: tokens respect the marks around them, and a text without balance has none.
-/

namespace PanelExport.Query

/-! ## Balance -/

section Balance

variable {α : Type} {opens closes : α → Bool}

/-- Behind `n` open marks none is closed that is not open, and in the end all are closed. -/
structure BalancedBehind (opens closes : α → Bool) (n : Nat) (as : List α) : Prop where
  within : ∀ before, before <+: as → before.countP closes ≤ n + before.countP opens
  settled : as.countP closes = n + as.countP opens

/-- In every front part of a row at most as many marks are closed as are opened, and in the whole
row as many. -/
def Balanced (opens closes : α → Bool) (as : List α) : Prop :=
  BalancedBehind opens closes 0 as

theorem BalancedBehind.nil : BalancedBehind opens closes 0 [] where
  within before h := by
    rw [List.prefix_nil.1 h]
    exact Nat.zero_le _
  settled := rfl

/-- A row is balanced behind its first item if the number of open brackets is counted on. -/
theorem BalancedBehind.cons {m n : Nat} {a : α} {as : List α}
    (h : BalancedBehind opens closes m as)
    (hm : m + (if closes a = true then 1 else 0) = n + if opens a = true then 1 else 0) :
    BalancedBehind opens closes n (a :: as) where
  within before hbefore := by
    rcases List.prefix_cons_iff.1 hbefore with rfl | ⟨others, rfl, hothers⟩
    · exact Nat.zero_le _
    · have hle := h.within others hothers
      simp only [List.countP_cons]
      omega
  settled := by
    have heq := h.settled
    simp only [List.countP_cons]
    omega

/-- What neither opens nor closes anything does not matter. -/
theorem BalancedBehind.append {n : Nat} {as bs : List α} (h : BalancedBehind opens closes n bs)
    (ho : ∀ a ∈ as, opens a = false) (hc : ∀ a ∈ as, closes a = false) :
    BalancedBehind opens closes n (as ++ bs) := by
  induction as with
  | nil => exact h
  | cons a as ih =>
    obtain ⟨hao, ho⟩ := List.forall_mem_cons.1 ho
    obtain ⟨hac, hc⟩ := List.forall_mem_cons.1 hc
    exact (ih ho hc).cons (by simp [hao, hac])

end Balance

/-! ## Braces, brackets and the context -/

/-- The marks that enclose a stretch of a text. -/
inductive Enclosure where
  | braces
  | brackets

namespace Enclosure

/-- The mark in front of the stretch. -/
def openingMark : Enclosure → Char
  | .braces => '\x7b'
  | .brackets => '['

/-- The mark behind the stretch. -/
def closingMark : Enclosure → Char
  | .braces => '\x7d'
  | .brackets => ']'

/-- The kind of token that the mark in front is. -/
def opening : Enclosure → Kind
  | .braces => .leftBrace
  | .brackets => .leftBracket

/-- The kind of token that the mark behind is. -/
def closing : Enclosure → Kind
  | .braces => .rightBrace
  | .brackets => .rightBracket

/-- How many of the marks are open in a context. -/
def depth (b : Enclosure) (k : Context) : Nat :=
  match b with
  | .braces => k.braces
  | .brackets => k.brackets

/-- A token opens a stretch. -/
def opens (b : Enclosure) (t : Token) : Bool := t.kind == b.opening

/-- A token closes a stretch. -/
def closes (b : Enclosure) (t : Token) : Bool := t.kind == b.closing

/-- Some tokens open more stretches than they close. -/
def IsOpen (b : Enclosure) (before : List Token) : Prop :=
  before.countP b.closes < before.countP b.opens

end Enclosure

/-- The context behind a token of this kind. -/
def Context.after (k : Context) : Kind → Context
  | .leftBrace => { k with braces := k.braces + 1 }
  | .rightBrace => { k with braces := k.braces - 1 }
  | .leftBracket => { k with brackets := k.brackets + 1 }
  | .rightBracket => { k with brackets := k.brackets - 1 }
  | _ => k

/-- What a token may be in a context. -/
structure Context.Admits (k : Context) (kind : Kind) (value : String) : Prop where
  opening : ∀ b : Enclosure, kind = b.opening → value = String.singleton b.openingMark
  closing : ∀ b : Enclosure, kind = b.closing → 0 < b.depth k
  colon : kind = .colon → 0 < k.brackets
  operator : kind = .operator → value ∈ matcherTexts → k.braces = 0
  matcher : kind = .matcher → 0 < k.braces
  nameInBraces : kind = .identifier → 0 < k.braces → ':' ∉ value.toList
  nameInBrackets : kind = .identifier → 0 < k.brackets → value.toList.head? ≠ some ':'

variable {k k' : Context} {c : Char} {cs : List Char} {step : Step}

/-- A token changes the depth of an enclosure by what it opens and closes. -/
theorem depth_after {t : Token} (b : Enclosure) (h : t.kind = b.closing → 0 < b.depth k) :
    b.depth (k.after t.kind) + (if b.closes t = true then 1 else 0) =
      b.depth k + if b.opens t = true then 1 else 0 := by
  obtain ⟨kind, value, pos⟩ := t
  cases kind with
  | rightBrace =>
    cases b with
    | braces => exact Nat.sub_add_cancel (h rfl)
    | brackets => rfl
  | rightBracket =>
    cases b with
    | braces => rfl
    | brackets => exact Nat.sub_add_cancel (h rfl)
  | _ => cases b <;> rfl

/-- Only the tokens of brackets change the context. -/
theorem after_of_ne {kind : Kind} (h : ∀ b : Enclosure, kind ≠ b.opening ∧ kind ≠ b.closing)
    (k : Context) : k.after kind = k := by
  cases kind with
  | leftBrace => exact absurd rfl (h .braces).1
  | rightBrace => exact absurd rfl (h .braces).2
  | leftBracket => exact absurd rfl (h .brackets).1
  | rightBracket => exact absurd rfl (h .brackets).2
  | _ => rfl

/-! ## One step -/

/-- The marks that stand in no lexeme but themselves: braces, brackets, and what starts a comment or
a text. -/
def marks : List Char := ['\x7b', '\x7d', '[', ']', '#'] ++ quotes

/-- Brackets break every lexeme. -/
theorem breaks_of_mem_marks {d : Char} (h : d ∈ marks) : Breaks d where
  word := by
    have hall : marks.all (!isWord ·) = true := by decide +kernel
    simpa using List.all_eq_true.1 hall d h
  sign := by
    have hall : marks.all (fun d => !(['.', ':', '=', '~', '+', '-'].contains d)) = true := by
      decide
    simpa using List.all_eq_true.1 hall d h

/-- What the lexer takes in a context: layout, a text, a mark that opens or closes a stretch, or a
lexeme that does neither. -/
inductive Step.Moves (k : Context) (c : Char) (cs : List Char) : Step → Prop where
  | blank (isBlank : isBlank c = true) : Step.Moves k c cs ⟨none, 0, k⟩
  | comment (mark : c = '#') : Step.Moves k c cs ⟨none, runLength (· ≠ '\n') cs + 1, k⟩
  | text {body rest : List Char} (value : String) (encloses : Encloses c body)
      (closes : cs = body ++ c :: rest) :
      Step.Moves k c cs ⟨some (.text, value), body.length + 1, k⟩
  | opening (b : Enclosure) (mark : c = b.openingMark) :
      Step.Moves k c cs ⟨some (b.opening, String.singleton c), 0, k.after b.opening⟩
  | closing (b : Enclosure) (mark : c = b.closingMark) (inside : 0 < b.depth k) :
      Step.Moves k c cs ⟨some (b.closing, String.singleton c), 0, k.after b.closing⟩
  | other {kind : Kind} {extra : Nat}
      (isOther : ∀ b : Enclosure, kind ≠ b.opening ∧ kind ≠ b.closing)
      (quiet : ∀ d ∈ c :: cs.take extra, d ∉ marks)
      (admits : k.Admits kind (String.ofList (c :: cs.take extra))) :
      Step.Moves k c cs ⟨some (kind, String.ofList (c :: cs.take extra)), extra, k⟩

/-- A stretch at the front of a text has no marks if it would end before any character that breaks
lexemes. -/
theorem quiet_of_ends {size : Nat} (h : ∀ a d b, cs = a ++ d :: b → Breaks d → size ≤ a.length) :
    ∀ d ∈ cs.take size, d ∉ marks := by
  intro d hd hmark
  obtain ⟨a, b, hab⟩ := List.append_of_mem hd
  have hcs : cs = a ++ d :: (b ++ cs.drop size) := by
    rw [← List.cons_append, ← List.append_assoc, ← hab, List.take_append_drop]
  have hle := h a d _ hcs (breaks_of_mem_marks hmark)
  have hlength := congrArg List.length hab
  simp only [List.length_take, List.length_append, List.length_cons] at hlength
  omega

/-- The kinds of tokens that neither open nor close anything, wherever they stand. -/
def plainKinds : List Kind :=
  [.number, .duration, .text, .leftParen, .rightParen, .comma, .atSign, .finish]

/-- The plain kinds are kinds of no bracket. -/
theorem ne_of_mem_plainKinds {kind : Kind} (h : kind ∈ plainKinds) (b : Enclosure) :
    kind ≠ b.opening ∧ kind ≠ b.closing := by
  revert kind
  cases b <;> decide

/-- A plain token may stand in every context. -/
theorem admits_plain {kind : Kind} (h : kind ∈ plainKinds) (k : Context) (value : String) :
    k.Admits kind value := by
  have hne : ∀ other, other ∉ plainKinds → kind ≠ other := fun other ho he => ho (he ▸ h)
  exact {
    opening := fun b he => absurd he (hne _ (by cases b <;> decide))
    closing := fun b he => absurd he (hne _ (by cases b <;> decide))
    colon := fun he => absurd he (hne _ (by decide))
    operator := fun he => absurd he (hne _ (by decide))
    matcher := fun he => absurd he (hne _ (by decide))
    nameInBraces := fun he => absurd he (hne _ (by decide))
    nameInBrackets := fun he => absurd he (hne _ (by decide)) }

theorem admits_opening (k : Context) (b : Enclosure) :
    k.Admits b.opening (String.singleton b.openingMark) where
  opening b' he := by cases b <;> cases b' <;> cases he <;> rfl
  closing b' he := by cases b <;> cases b' <;> cases he
  colon he := by cases b <;> cases he
  operator he := by cases b <;> cases he
  matcher he := by cases b <;> cases he
  nameInBraces he := by cases b <;> cases he
  nameInBrackets he := by cases b <;> cases he

theorem admits_closing {b : Enclosure} (h : 0 < b.depth k) (value : String) :
    k.Admits b.closing value where
  opening b' he := by cases b <;> cases b' <;> cases he
  closing b' he := by cases b <;> cases b' <;> cases he <;> exact h
  colon he := by cases b <;> cases he
  operator he := by cases b <;> cases he
  matcher he := by cases b <;> cases he
  nameInBraces he := by cases b <;> cases he
  nameInBrackets he := by cases b <;> cases he

theorem moves_mark {kind : Kind} (hkind : ∀ b : Enclosure, kind ≠ b.opening ∧ kind ≠ b.closing)
    (hc : c ∉ marks) (h : k.Admits kind (String.singleton c)) (cs : List Char) :
    Step.Moves k c cs ⟨some (kind, String.singleton c), 0, k⟩ := by
  have hmove : Step.Moves k c cs ⟨some (kind, String.ofList (c :: cs.take 0)), 0, k⟩ :=
    .other hkind (by simpa using hc) h
  exact hmove

/-- A token of one character moves the context by its kind. -/
theorem markChoice_moves (h : markChoice k c = some (.ok step)) (cs : List Char) :
    step.Moves k c cs := by
  have plain : ∀ kind ∈ plainKinds, c ∉ marks →
      Step.Moves k c cs ⟨some (kind, String.singleton c), 0, k⟩ := fun kind hkind hc =>
    moves_mark (ne_of_mem_plainKinds hkind) hc (admits_plain hkind k _) cs
  unfold markChoice at h
  dsimp only at h
  split at h
  · rename_i hc
    split at h
    · rename_i hinside
      cases h
      refine moves_mark (fun b => by cases b <;> decide) (hc ▸ by decide) ?_ cs
      exact ⟨fun b => by cases b <;> nofun, fun b => by cases b <;> nofun, fun _ => hinside, nofun,
        nofun, nofun, nofun⟩
    · cases h
  split at h
  · rename_i hc
    cases h
    exact plain .leftParen (by decide) (hc ▸ by decide)
  split at h
  · rename_i hc
    cases h
    exact plain .rightParen (by decide) (hc ▸ by decide)
  split at h
  · rename_i hc
    cases h
    exact .opening .braces hc
  split at h
  · rename_i hc
    split at h
    · cases h
    · rename_i hinside
      cases h
      exact .closing .braces hc (Nat.pos_of_ne_zero hinside)
  split at h
  · rename_i hc
    cases h
    exact .opening .brackets hc
  split at h
  · rename_i hc
    split at h
    · cases h
    · rename_i hinside
      cases h
      exact .closing .brackets hc (Nat.pos_of_ne_zero hinside)
  split at h
  · rename_i hc
    cases h
    exact plain .comma (by decide) (hc ▸ by decide)
  split at h
  · rename_i hc
    cases h
    exact plain .atSign (by decide) (hc ▸ by decide)
  · cases h

/-- A literal leaves the context as it is and holds no bracket. -/
theorem literal_moves {kind : Kind} {size : Nat} (h : literal? (c :: cs) = some (kind, size)) :
    Step.Moves k c cs ⟨some (kind, String.ofList ((c :: cs).take size)), size - 1, k⟩ := by
  obtain ⟨hpos, hle⟩ := literal?_bounds h
  obtain ⟨extra, rfl⟩ := Nat.exists_eq_add_one_of_ne_zero (Nat.ne_of_gt hpos)
  have hkind : kind ∈ plainKinds := by
    rcases literal?_kind h with ⟨rfl, -⟩ | ⟨rfl, -⟩ <;> decide
  have hquiet : ∀ d ∈ (c :: cs).take (extra + 1), d ∉ marks := quiet_of_ends fun a d b hcs hd => by
    rw [hcs, literal?_append a (endsLexeme_cons hd b)] at h
    exact (literal?_bounds h).2
  exact .other (ne_of_mem_plainKinds hkind) hquiet (admits_plain hkind k _)

/-- What a name goes on with is no mark, and inside braces no colon. -/
theorem continuesIn_ne {d : Char} (h : continuesIn k d = true) :
    d ∉ marks ∧ (0 < k.braces → d ≠ ':') := by
  constructor
  · intro hd
    have hall : marks.all (fun d => !continuesName d && d != ':') = true := by decide
    have hquiet : continuesName d = false ∧ d ≠ ':' := by simpa using List.all_eq_true.1 hall d hd
    simp [continuesIn, hquiet] at h
  · rintro hinside rfl
    have hcolon : continuesName ':' = false := by decide
    simp [continuesIn, hcolon, Nat.ne_of_gt hinside] at h

/-- A name leaves the context as it is and holds no bracket. -/
theorem name_moves (hmark : markChoice k c = none)
    (hc : (startsName c || (k.braces == 0 && c == ':')) = true) :
    Step.Moves k c cs
      ⟨some (.identifier, String.ofList (c :: cs.take (runLength (continuesIn k) cs))),
        runLength (continuesIn k) cs, k⟩ := by
  have hname : ∀ d ∈ c :: cs.take (runLength (continuesIn k) cs), continuesIn k d = true := by
    refine List.forall_mem_cons.2 ⟨?_, fun d hd => ?_⟩
    · simp only [startsName, Bool.or_eq_true] at hc
      simp only [continuesIn, continuesName, Char.isAlphanum, Bool.or_eq_true]
      exact hc.imp_left fun h => h.imp_left .inl
    · have hrun := List.prefix_iff_eq_take.1 (List.takeWhile_prefix (continuesIn k) (l := cs))
      rw [runLength, ← hrun] at hd
      exact List.all_eq_true.1 List.all_takeWhile d hd
  have hother : ∀ b : Enclosure, Kind.identifier ≠ b.opening ∧ Kind.identifier ≠ b.closing :=
    fun b => by cases b <;> decide
  exact .other hother (fun d hd => (continuesIn_ne (hname d hd)).1) {
    opening := fun b he => absurd he (hother b).1
    closing := fun b he => absurd he (hother b).2
    colon := fun he => by cases he
    operator := fun he => by cases he
    matcher := fun he => by cases he
    nameInBraces := fun _ hinside hcolon => by
      rw [String.toList_ofList] at hcolon
      exact (continuesIn_ne (hname _ hcolon)).2 hinside rfl
    nameInBrackets := fun _ hinside hcolon => by
      -- A colon inside brackets would have been a mark.
      rw [String.toList_ofList, List.head?_cons, Option.some.injEq] at hcolon
      simp [markChoice, hcolon, hinside] at hmark }

/-- Inside braces an operator that may be a matcher is one. -/
theorem admits_operator (k : Context) (op : String) :
    k.Admits (if 0 < k.braces ∧ op ∈ matcherTexts then .matcher else .operator) op := by
  split
  · rename_i hinside
    exact {
      opening := fun b he => by cases b <;> cases he
      closing := fun b he => by cases b <;> cases he
      colon := nofun
      operator := nofun
      matcher := fun _ => hinside.1
      nameInBraces := nofun
      nameInBrackets := nofun }
  · rename_i hinside
    exact {
      opening := fun b he => by cases b <;> cases he
      closing := fun b he => by cases b <;> cases he
      colon := nofun
      operator := fun _ hop => Nat.eq_zero_of_not_pos fun h => hinside ⟨h, hop⟩
      matcher := nofun
      nameInBraces := nofun
      nameInBrackets := nofun }

/-- An operator leaves the context as it is, and its kind tells of the braces around it. -/
theorem operator_moves {op : String} (hop : operator? (c :: cs) = some op) :
    Step.Moves k c cs
      ⟨some (if 0 < k.braces ∧ op ∈ matcherTexts then Kind.matcher else .operator, op),
        op.length - 1, k⟩ := by
  have hall : ∀ op ∈ operators, op.toList.all (fun d => !marks.contains d) = true := by decide
  have hquiet : ∀ op ∈ operators, ∀ d ∈ op.toList, d ∉ marks := by simpa using hall
  have hmem := (operator?_eq_some hop).1
  have hadmits := admits_operator k op
  generalize hkind : (if 0 < k.braces ∧ op ∈ matcherTexts then Kind.matcher else .operator) = kind
    at hadmits ⊢
  have hother : ∀ b : Enclosure, kind ≠ b.opening ∧ kind ≠ b.closing := fun b => by
    subst hkind
    split <;> cases b <;> decide
  have hcovers := operator_covers hop k .operator (by decide)
  generalize hextra : op.length - 1 = extra at hcovers ⊢
  cases hcovers with
  | plain isPlain within =>
    exact .other hother (by simpa using hquiet _ hmem) hadmits

/-- Every step moves the context by the token that it takes and by nothing else. -/
theorem takeStep_moves (h : takeStep k c cs = .ok step) : step.Moves k c cs := by
  cases takeStep_form h with
  | blank isBlank => exact .blank isBlank
  | comment mark => exact .comment mark
  | text encloses closes => exact .text _ encloses closes
  | mark chosen => exact markChoice_moves chosen cs
  | literal front => exact literal_moves front
  | name noMark starts => exact name_moves noMark starts
  | operator front => exact operator_moves front

/-! ## Runs -/

/-- A step that takes a token takes one that its context admits, and stands behind it. -/
theorem Step.Moves.admits {kind : Kind} {value : String} (h : step.Moves k c cs)
    (ht : step.token? = some (kind, value)) :
    k.Admits kind value ∧ step.context = k.after kind := by
  cases h with
  | blank _ => cases ht
  | comment _ => cases ht
  | text value _ _ =>
    cases ht
    exact ⟨admits_plain (by decide) k value, rfl⟩
  | opening b mark =>
    cases ht
    exact ⟨mark ▸ admits_opening k b, rfl⟩
  | closing b mark inside =>
    cases ht
    exact ⟨admits_closing inside _, rfl⟩
  | other isOther quiet admits =>
    cases ht
    exact ⟨admits, (after_of_ne isOther k).symm⟩

/-- Tokens one behind the other, each of which is admitted in the context that those before it
make. -/
inductive Follows : Context → List Token → Context → Prop where
  | nil (k : Context) : Follows k [] k
  | cons {k k' : Context} {t : Token} {ts : List Token} (first : k.Admits t.kind t.value)
      (others : Follows (k.after t.kind) ts k') : Follows k (t :: ts) k'

/-- The tokens of a text move the context from one to the next, and at the end all is closed. -/
theorem follows_of_piecesFrom {pos : Nat} {ps : List Piece} (h : piecesFrom k pos cs = .ok ps) :
    ∃ k', Follows k (tokensOf pos ps) k' ∧ k'.unclosed? = none := by
  replace h := runs_of_piecesFrom h
  induction h generalizing pos with
  | finish closed => exact ⟨_, .nil _, closed⟩
  | @step k c cs step ps hs _ ih =>
    obtain ⟨k', hfollows, hclosed⟩ := @ih (pos + (c :: cs.take step.extra).length)
    refine ⟨k', ?_, hclosed⟩
    cases ht : step.token? with
    | none =>
      rw [context_of_layout hs ht] at hfollows
      simp only [Step.piece, ht, tokensOf]
      exact hfollows
    | some token =>
      obtain ⟨hadmits, hcontext⟩ := (takeStep_moves hs).admits ht
      rw [hcontext] at hfollows
      simp only [Step.piece, ht, tokensOf]
      exact .cons hadmits hfollows

/-- The context between two rows of tokens is the one that the first row leaves. -/
theorem Follows.split {as bs : List Token} (h : Follows k (as ++ bs) k') :
    ∃ m, Follows k as m ∧ Follows m bs k' := by
  induction as generalizing k with
  | nil => exact ⟨k, .nil k, h⟩
  | cons t as ih =>
    cases h with
    | cons first others =>
      obtain ⟨m, hm, hm'⟩ := ih others
      exact ⟨m, .cons first hm, hm'⟩

theorem Follows.append {k'' : Context} {as bs : List Token} (h : Follows k as k')
    (h' : Follows k' bs k'') : Follows k (as ++ bs) k'' := by
  induction h with
  | nil => exact h'
  | cons first _ ih => exact .cons first (ih h')

/-- What is open behind some tokens is what was open before them and what they leave open. -/
theorem Follows.depth_add {ts : List Token} (h : Follows k ts k') (b : Enclosure) :
    b.depth k' + ts.countP b.closes = b.depth k + ts.countP b.opens := by
  induction h with
  | nil => rfl
  | cons first _ ih =>
    have hstep := depth_after b (first.closing b)
    simp only [List.countP_cons]
    omega

/-! ## Outside of texts and comments -/

/-- Where a character stands: in a comment, in a text between quotes, behind the backslash of an
escape there, or outside of all of them. -/
inductive Region where
  | plain
  | comment
  | text (quote : Char)
  | escape (quote : Char)
  deriving DecidableEq

/-- Where the next character stands. A newline ends a comment, and the quote that it starts with
ends a text; between back quotes there are no escapes. -/
def Region.next : Region → Char → Region
  | .plain, c => if c = '#' then .comment else if c ∈ quotes then .text c else .plain
  | .comment, c => if c = '\n' then .plain else .comment
  | .text quote, c =>
    if c = quote then .plain
    else if c = '\\' ∧ quote ≠ '\x60' then .escape quote
    else .text quote
  | .escape quote, _ => .text quote

/-- The characters of a text that stand outside of texts and comments, without the marks that start
them. -/
def exposed : Region → List Char → List Char
  | _, [] => []
  | r, c :: cs =>
    if r = .plain ∧ r.next c = .plain then c :: exposed (r.next c) cs else exposed (r.next c) cs

/-- Characters that open neither a comment nor a text are all exposed. -/
theorem exposed_plain {a : List Char} (h : ∀ d ∈ a, d ≠ '#' ∧ d ∉ quotes) (cs : List Char) :
    exposed .plain (a ++ cs) = a ++ exposed .plain cs := by
  induction a with
  | nil => rfl
  | cons d a ih =>
    obtain ⟨hd, ha⟩ := List.forall_mem_cons.1 h
    have hnext : Region.plain.next d = .plain := by simp [Region.next, hd]
    rw [List.cons_append, exposed, hnext, if_pos ⟨rfl, rfl⟩, ih ha, List.cons_append]

/-- Nothing in a comment is exposed. -/
theorem exposed_comment (cs : List Char) :
    exposed .comment cs = exposed .plain (cs.drop (runLength (· ≠ '\n') cs + 1)) := by
  induction cs with
  | nil => rfl
  | cons c cs ih =>
    by_cases hc : c = '\n'
    · subst hc
      simp [exposed, Region.next, runLength]
    · have hrun : runLength (· ≠ '\n') (c :: cs) = runLength (· ≠ '\n') cs + 1 := by
        simp [runLength, hc]
      rw [hrun, List.drop_succ_cons, ← ih, exposed]
      simp [Region.next, hc]

/-- Nothing between quotes is exposed. -/
theorem exposed_encloses {quote : Char} {body : List Char} (h : Encloses quote body)
    (rest : List Char) : exposed (.text quote) (body ++ quote :: rest) = exposed .plain rest := by
  have hclose : exposed (.text quote) (quote :: rest) = exposed .plain rest := by
    simp [exposed, Region.next]
  cases h with
  | back hplain =>
    induction body with
    | nil => exact hclose
    | cons c body ih =>
      obtain ⟨hc, hbody⟩ := not_or.1 (mt List.mem_cons.2 hplain)
      rw [List.cons_append, exposed, ← ih hbody]
      simp [Region.next, Ne.symm hc]
  | escaped hq hescaped =>
    have hne : quote ≠ '\x60' ∧ '\\' ≠ quote := by
      rcases hq with rfl | rfl <;> decide
    induction hescaped with
    | nil => exact hclose
    | pair c _ ih =>
      rw [List.cons_append, List.cons_append, exposed, exposed, ← ih]
      simp [Region.next, hne]
    | plain backslash closing _ _ ih =>
      rw [List.cons_append, exposed, ← ih]
      simp [Region.next, backslash, closing]

/-! ## Marks of a text -/

theorem balancedBehind_quiet {b : Enclosure} {n : Nat} {a : List Char} (ha : ∀ d ∈ a, d ∉ marks)
    (h : BalancedBehind (· == b.openingMark) (· == b.closingMark) n (exposed .plain cs)) :
    BalancedBehind (· == b.openingMark) (· == b.closingMark) n (exposed .plain (a ++ cs)) := by
  have hmarks : b.openingMark ∈ marks ∧ b.closingMark ∈ marks := by cases b <;> decide
  have hstart : ∀ d ∈ a, d ≠ '#' ∧ d ∉ quotes := fun d hd => by
    have hd := ha d hd
    simp only [marks, List.mem_append, List.mem_cons, not_or] at hd
    exact ⟨hd.1.2.2.2.2.1, hd.2⟩
  rw [exposed_plain hstart]
  refine h.append (fun d hd => ?_) (fun d hd => ?_)
  · exact beq_false_of_ne fun he => ha d hd (he ▸ hmarks.1)
  · exact beq_false_of_ne fun he => ha d hd (he ▸ hmarks.2)

/-- A mark changes how many of its kind are open, and no other number. -/
theorem balancedBehind_mark {b : Enclosure} {m n : Nat} (hc : c ≠ '#' ∧ c ∉ quotes)
    (h : BalancedBehind (· == b.openingMark) (· == b.closingMark) m (exposed .plain cs))
    (hm : m + (if (c == b.closingMark) = true then 1 else 0) =
      n + if (c == b.openingMark) = true then 1 else 0) :
    BalancedBehind (· == b.openingMark) (· == b.closingMark) n (exposed .plain (c :: cs)) := by
  rw [← List.singleton_append, exposed_plain (by simpa using hc)]
  exact h.cons hm

theorem depth_of_closed (h : k.unclosed? = none) (b : Enclosure) : b.depth k = 0 := by
  unfold Context.unclosed? at h
  split at h
  · cases h
  · split at h
    · cases h
    · cases b <;> simp only [Enclosure.depth] <;> omega

/-- Outside of texts and comments the marks of a text with tokens are balanced. -/
theorem balanced_exposed {pos : Nat} {ps : List Piece} (h : piecesFrom k pos cs = .ok ps)
    (b : Enclosure) :
    BalancedBehind (· == b.openingMark) (· == b.closingMark) (b.depth k) (exposed .plain cs) := by
  replace h := runs_of_piecesFrom h
  induction h with
  | finish closed =>
    rw [depth_of_closed closed]
    exact .nil
  | @step k c cs step ps hs _ hbalanced =>
    cases takeStep_moves hs with
    | blank hblank =>
      refine balancedBehind_quiet (a := [c]) (fun d hd hmark => ?_) hbalanced
      have hall : marks.all (!isBlank ·) = true := by decide +kernel
      have hquiet := List.all_eq_true.1 hall d hmark
      simp [List.mem_singleton.1 hd, hblank] at hquiet
    | comment mark =>
      subst mark
      simpa [exposed, Region.next, exposed_comment] using hbalanced
    | text value encloses closes =>
      subst closes
      have hquote := mem_quotes_of_encloses encloses
      have hmark : c ≠ '#' := by
        rintro rfl
        revert hquote
        decide
      simpa [exposed, Region.next, hmark, hquote, exposed_encloses encloses] using hbalanced
    | opening b' mark =>
      subst mark
      refine balancedBehind_mark (by cases b' <;> decide) hbalanced ?_
      cases b <;> cases b' <;> rfl
    | closing b' mark inside =>
      subst mark
      refine balancedBehind_mark (by cases b' <;> decide) hbalanced ?_
      cases b with
      | braces =>
        cases b' with
        | braces => exact Nat.sub_add_cancel inside
        | brackets => rfl
      | brackets =>
        cases b' with
        | braces => rfl
        | brackets => exact Nat.sub_add_cancel inside
    | other isOther quiet admits =>
      have hquiet := balancedBehind_quiet quiet hbalanced
      rwa [List.cons_append, List.take_append_drop] at hquiet

/-! ## Texts -/

/-- What a token may be behind others: colons stand inside brackets, matchers inside braces and the
operators that look like them outside, and names have no colons inside braces and do not start with
one inside brackets. -/
structure Token.FitsBehind (before : List Token) (t : Token) : Prop where
  colon : t.kind = .colon → Enclosure.brackets.IsOpen before
  operator : t.kind = .operator → t.value ∈ matcherTexts → ¬ Enclosure.braces.IsOpen before
  matcher : t.kind = .matcher → Enclosure.braces.IsOpen before
  nameInBraces : t.kind = .identifier → Enclosure.braces.IsOpen before → ':' ∉ t.value.toList
  nameInBrackets :
    t.kind = .identifier → Enclosure.brackets.IsOpen before → t.value.toList.head? ≠ some ':'

theorem depth_outside (b : Enclosure) : b.depth .outside = 0 := by
  cases b <;> rfl

/-- The tokens of a text, with the mark at its end. -/
theorem follows_of_tokenize {text : String} {ts : List Token} (h : tokenize text = .ok ts) :
    ∃ k, Follows .outside ts k ∧ k.unclosed? = none := by
  obtain ⟨lexemes, hlex, rfl⟩ := exceptMap_eq_ok.1 h
  obtain ⟨ps, hps, rfl⟩ := exceptMap_eq_ok.1 hlex
  obtain ⟨k, hfollows, hclosed⟩ := follows_of_piecesFrom hps
  have hfinish : k.Admits .finish "" := admits_plain (by decide) k _
  exact ⟨k, hfollows.append (.cons hfinish (.nil k)), hclosed⟩

/-- In tokens that leave nothing open, every enclosure is balanced. -/
theorem Follows.balanced {ts : List Token} (h : Follows .outside ts k)
    (hk : k.unclosed? = none) (b : Enclosure) : Balanced b.opens b.closes ts where
  within before hbefore := by
    obtain ⟨others, rfl⟩ := hbefore
    obtain ⟨m, hm, -⟩ := h.split
    have hdepth := hm.depth_add b
    rw [depth_outside] at hdepth
    omega
  settled := by
    have hdepth := h.depth_add b
    rw [depth_of_closed hk, depth_outside] at hdepth
    omega

/-- Every token fits what is open behind the tokens before it. -/
theorem Follows.fitsBehind {before after : List Token} {t : Token}
    (h : Follows .outside (before ++ t :: after) k) : t.FitsBehind before := by
  obtain ⟨m, hm, hfirst⟩ := h.split
  cases hfirst with
  | cons admits _ =>
    have hopen : ∀ b : Enclosure, b.IsOpen before ↔ 0 < b.depth m := fun b => by
      have hdepth := hm.depth_add b
      rw [depth_outside] at hdepth
      rw [Enclosure.IsOpen]
      omega
    exact {
      colon := fun hk => (hopen _).2 (admits.colon hk)
      operator := fun hk hop ho => Nat.ne_of_gt ((hopen _).1 ho) (admits.operator hk hop)
      matcher := fun hk => (hopen _).2 (admits.matcher hk)
      nameInBraces := fun hk ho => admits.nameInBraces hk ((hopen _).1 ho)
      nameInBrackets := fun hk ho => admits.nameInBrackets hk ((hopen _).1 ho) }

/-- The tokens of a text close the braces and the brackets that they open, and what a token is goes
with what is open before it. A text in which the braces or the brackets outside of texts and
comments are not balanced has no tokens. -/
theorem tokenize_enclosed (text : String) :
    (∀ ts, tokenize text = .ok ts →
      (∀ b : Enclosure, Balanced b.opens b.closes ts) ∧
        ∀ before t after, ts = before ++ t :: after → t.FitsBehind before) ∧
    ∀ b : Enclosure,
      ¬ Balanced (· == b.openingMark) (· == b.closingMark) (exposed .plain text.toList) →
        ∃ e, tokenize text = .error e := by
  refine ⟨fun ts h => ?_, fun b hb => ?_⟩
  · obtain ⟨k, hfollows, hclosed⟩ := follows_of_tokenize h
    refine ⟨hfollows.balanced hclosed, fun before t after hts => ?_⟩
    rw [hts] at hfollows
    exact hfollows.fitsBehind
  · cases h : tokenize text with
    | error e => exact ⟨e, rfl⟩
    | ok ts =>
      obtain ⟨lexemes, hlex, rfl⟩ := exceptMap_eq_ok.1 h
      obtain ⟨ps, hps, rfl⟩ := exceptMap_eq_ok.1 hlex
      have hbalanced := balanced_exposed hps b
      rw [depth_outside] at hbalanced
      exact absurd hbalanced hb

end PanelExport.Query
