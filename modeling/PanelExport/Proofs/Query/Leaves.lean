import PanelExport.Proofs.Query.Brackets
import PanelExport.Proofs.Query.Composition
import PanelExport.Proofs.Query.Places

/-!
# The leaves of a tree in its text

Every leaf of a parsed tree starts where one of the tokens does, a selector where its name or its
brace does, and the walk through the tree gives the leaves in the order of those tokens. So the
selectors of a query stand in its text, in the order in which they are found.

* `Yields`: tokens that the leaves of some trees start with, in front of the tokens left.
* `levels_yield`: what is read off the front of some tokens has its leaves there, in their order.
* `distinct_pairwise`: names in the order in which they first stand in a row.
* `parse_leaves`: the leaves of a query in its text, and the metrics that are found in it.
-/

namespace PanelExport.Query

/-! ## Leaves -/

namespace Expr

instance (e : Expr) : Decidable e.IsLeaf :=
  match e with
  | .number _ _ | .text _ _ | .selector _ => .isTrue trivial
  | .matrix _ _ _ | .subquery _ _ _ _ | .call _ _ _ _ | .aggregate _ _ _ _ _ | .binary _ _ _ _ _
  | .unary _ _ _ | .paren _ _ => .isFalse id

/-- The numbers, texts and selectors of a tree, in the order of the walk. -/
def leaves (e : Expr) : List Expr :=
  e.walk.filter (·.IsLeaf)

/-- The leaves of some trees, one after the other. -/
def leavesOfAll (es : List Expr) : List Expr :=
  (listings es).filter (·.IsLeaf)

theorem leaves_eq (e : Expr) : e.leaves = leavesOfAll [e] := by
  rw [leaves, walk, walkStack_eq_listings, leavesOfAll]

theorem leavesOfAll_append (es fs : List Expr) :
    leavesOfAll (es ++ fs) = leavesOfAll es ++ leavesOfAll fs := by
  rw [leavesOfAll, listings_append, List.filter_append]
  rfl

/-- The leaves of a node that is none are those of its children. -/
theorem leavesOfAll_node {e : Expr} (h : ¬ e.IsLeaf) :
    leavesOfAll [e] = leavesOfAll e.children := by
  rw [leavesOfAll, listings, listings, List.append_nil, listing_eq,
    List.filter_cons_of_neg (by simpa using h)]
  rfl

/-- A leaf is the only leaf of itself. -/
theorem leavesOfAll_leaf {e : Expr} (h : e.IsLeaf) : leavesOfAll [e] = [e] := by
  cases e with
  | number => rfl
  | text => rfl
  | selector => rfl
  | _ => exact h.elim

/-- The selectors of a tree are its leaves of that kind. -/
theorem mem_leaves_selector {e : Expr} {s : Selector} :
    .selector s ∈ e.leaves ↔ s ∈ e.selectors := by
  rw [leaves_eq, leavesOfAll, List.mem_filter, mem_selectors, listings, listings, List.append_nil]
  exact and_iff_left (decide_eq_true trivial)

end Expr

/-! ## Leaves and tokens -/

/-- A token starts a leaf: a selector starts with its name, or with a brace if it has none. -/
structure Token.Heads (t : Token) (n : Expr) : Prop where
  pos : n.pos = t.pos
  selector : ∀ s, n = .selector s →
    (t.kind = .identifier ∧ t.value = s.name) ∨ (t.kind = .leftBrace ∧ s.name = "")

/-- Leaves have the places of the tokens that head them. -/
theorem map_pos_eq {heads : List Token} {ns : List Expr} (h : List.Forall₂ Token.Heads heads ns) :
    ns.map Expr.pos = heads.map Token.pos := by
  induction h with
  | nil => rfl
  | cons first _ ih => rw [List.map_cons, List.map_cons, first.pos, ih]

theorem exists_head {heads : List Token} {ns : List Expr} (h : List.Forall₂ Token.Heads heads ns)
    {n : Expr} (hn : n ∈ ns) : ∃ t ∈ heads, t.Heads n := by
  induction h with
  | nil => cases hn
  | @cons t n' heads ns first _ ih =>
    rcases List.mem_cons.1 hn with rfl | hn
    · exact ⟨t, List.mem_cons_self .., first⟩
    · obtain ⟨t', ht', hhead⟩ := ih hn
      exact ⟨t', List.mem_cons_of_mem t ht', hhead⟩

/-- Tokens start the leaves of some trees, one after the other, in front of the tokens left. -/
def Yields (ts : List Token) (es : List Expr) (rest : List Token) : Prop :=
  ∃ heads, List.Forall₂ Token.Heads heads (Expr.leavesOfAll es) ∧ (heads ++ rest).Sublist ts

namespace Yields

variable {ts mid rest : List Token} {es fs : List Expr} {e : Expr} {t : Token}

theorem refl (ts : List Token) : Yields ts [] ts :=
  ⟨[], .nil, List.Sublist.refl ts⟩

/-- Leaves that are read one behind the other are read together. -/
theorem trans (h : Yields ts es mid) (h' : Yields mid fs rest) : Yields ts (es ++ fs) rest := by
  obtain ⟨heads, hheads, hs⟩ := h
  obtain ⟨heads', hheads', hs'⟩ := h'
  refine ⟨heads ++ heads', ?_, ?_⟩
  · rw [Expr.leavesOfAll_append]
    exact List.rel_append hheads hheads'
  · rw [List.append_assoc]
    exact ((List.Sublist.refl heads).append hs').trans hs

/-- What is read behind tokens that start no leaf. -/
theorem after (h : mid <:+ ts) (h' : Yields mid es rest) : Yields ts es rest := by
  obtain ⟨heads, hheads, hs⟩ := h'
  exact ⟨heads, hheads, hs.trans h.sublist⟩

/-- What is read in front of tokens that start no leaf. -/
theorem before (h : Yields ts es mid) (h' : rest <:+ mid) : Yields ts es rest := by
  obtain ⟨heads, hheads, hs⟩ := h
  exact ⟨heads, hheads, ((List.Sublist.refl heads).append h'.sublist).trans hs⟩

theorem congr (h : Yields ts es rest) (hl : Expr.leavesOfAll fs = Expr.leavesOfAll es) :
    Yields ts fs rest := by
  rw [Yields, hl]
  exact h

/-- A node with others below it. -/
theorem node (hn : ¬ e.IsLeaf) (h : Yields ts e.children rest) : Yields ts [e] rest :=
  h.congr (Expr.leavesOfAll_node hn)

theorem leaf (hn : e.IsLeaf) (h : t.Heads e) (hs : rest <:+ ts) : Yields (t :: ts) [e] rest := by
  refine ⟨[t], ?_, hs.sublist.cons_cons t⟩
  rw [Expr.leavesOfAll_leaf hn]
  exact .cons h .nil

/-- A sign takes the place of the number behind it. -/
theorem sign {p : Nat} {v : Number} (h : Yields ts [.number p v] rest) (t : Token) (v' : Number) :
    Yields (t :: ts) [.number t.pos v'] rest := by
  obtain ⟨heads, hheads, hs⟩ := h
  have number : ∀ p v, Expr.leavesOfAll [.number p v] = [.number p v] := fun _ _ =>
    Expr.leavesOfAll_leaf trivial
  rw [number] at hheads
  cases hheads with
  | cons _ hnil =>
    cases hnil
    refine ⟨[t], ?_, ((List.sublist_cons_self _ rest).trans hs).cons_cons t⟩
    rw [number]
    exact .cons ⟨rfl, nofun⟩ .nil

end Yields

/-- A parser of trees starts the leaves of what it reads with tokens. -/
def Yielding (p : Parser Expr) : Prop :=
  ∀ ts e rest, Reads p ts e rest → Yields ts [e] rest

variable {stop calls : Nat} {ts rest : List Token}

/-! ## Selectors and ranges -/

/-- The conditions of a selector leave its place and its name alone. -/
theorem conditions_keeps {pos : Nat} {name : String} {s : Selector}
    (h : reading (conditions stop pos name ts) = .ok (s, rest)) :
    s.pos = pos ∧ s.name = name ∧ rest <:+ ts := by
  have hs := (keeps_conditions (grants_any stop _) blamable_any name).of_reading h
  obtain ⟨_, -, rfl, -⟩ := conditions_eq_ok.1 h
  exact ⟨rfl, rfl, hs⟩

/-- A selector keeps the place and the name that it was given. -/
theorem Selects.keeps {pos : Nat} {name : String} {s : Selector}
    (h : Selects stop pos name ts s rest) : s.pos = pos ∧ s.name = name ∧ rest <:+ ts := by
  cases h with
  | alone _ => exact ⟨rfl, rfl, List.suffix_refl _⟩
  | braces conditions =>
    obtain ⟨hpos, hname, hs⟩ := conditions_keeps conditions
    exact ⟨hpos, hname, hs.trans (List.suffix_cons _ _)⟩

/-- A range and a subquery have the leaves of what they are on. -/
theorem Ranged.leaves {node e : Expr} (h : Ranged stop calls node ts e rest) :
    Expr.leavesOfAll [e] = Expr.leavesOfAll [node] := by
  cases h <;> exact Expr.leavesOfAll_node id

/-- Suffixes add no leaves. -/
theorem Suffixed.leaves {node e : Expr} {ms : Modifiers}
    (h : Suffixed stop calls node ms ts e rest) :
    Expr.leavesOfAll [e] = Expr.leavesOfAll [node] := by
  induction h with
  | done _ => rfl
  | range _ _ range _ ih => exact ih.trans (ranged_of_reading range).leaves
  | offset _ _ _ _ ih => exact ih
  | atSign _ _ _ _ ih => exact ih

/-! ## Calls and aggregations -/

/-- The arguments of a call yield their leaves in order. -/
theorem arguments_yield {place : Place} {argument : Parser Expr} (ha : Yielding argument)
    {args : List Expr}
    (h : reading (separated stop .rightParen place argument ts) = .ok (args, rest)) :
    Yields ts args rest := by
  rw [separated_iff (by decide)] at h
  induction h with
  | closed _ => exact (Yields.refl _).after (List.suffix_cons _ _)
  | last _ first _ => exact (ha _ _ _ first).before (List.suffix_cons _ _)
  | more _ first _ _ ih => exact (ha _ _ _ first).trans (ih.after (List.suffix_cons _ _))

/-- A call yields the leaves of its arguments. -/
theorem Called.yields {argument : Parser Expr} {function : Token} {e : Expr}
    (h : Called stop argument function ts e rest) (ha : Yielding argument) :
    Yields ts [e] rest := by
  cases h with
  | call _ opens arguments _ =>
    have hopening := (keeps_expect (grants_any stop _) ..).of_reading opens
    exact .node id ((arguments_yield ha arguments).after hopening)

/-- An aggregation yields the leaves of its arguments. -/
theorem Aggregates.yields {argument : Parser Expr} {pos : Nat} {op : AggregateOp} {e : Expr}
    (h : Aggregates stop argument pos op ts e rest) (ha : Yielding argument) :
    Yields ts [e] rest := by
  obtain ⟨hl, ho, hargs, ht, -, hc⟩ := h
  obtain ⟨inner, parameter?, rfl, rfl, -, -⟩ := checkAggregate_eq_ok.1 hc
  have hleading := (keeps_grouping (grants_any stop _)).of_reading hl
  have hopening := ((keeps_expect (grants_any stop _) ..).of_reading ho).trans hleading
  have hclosing := (keeps_grouping (grants_any stop _)).of_reading ht
  exact .node id (((arguments_yield ha hargs).after hopening).before hclosing)

/-! ## Operands -/

/-- What a name starts: the name itself may start a leaf, and then there is no other. -/
theorem Named.yields {argument : Parser Expr} {name : Token} {e : Expr}
    (h : Named stop argument name ts e rest) (ha : Yielding argument)
    (hname : name.kind = .identifier) : Yields (name :: ts) [e] rest := by
  cases h with
  | aggregate aggregates => exact (aggregates.yields ha).after (List.suffix_cons _ _)
  | call called => exact (called.yields ha).after (List.suffix_cons _ _)
  | number => exact .leaf trivial ⟨rfl, nofun⟩ (List.suffix_refl _)
  | selector selects =>
    obtain ⟨hpos, hvalue, hsuffix⟩ := selects.keeps
    refine .leaf trivial ⟨hpos, fun s' hs' => ?_⟩ hsuffix
    cases hs'
    exact .inl ⟨hname, hvalue.symm⟩

/-- A primary yields itself, or the leaves of what nests in it. -/
theorem Primary.yields {nested : Nat → Parser Expr} {e : Expr}
    (h : Primary stop nested ts e rest) (hn : ∀ between, Yielding (nested between)) :
    Yields ts [e] rest := by
  cases h with
  | number _ _ => exact .leaf trivial ⟨rfl, nofun⟩ (List.suffix_refl _)
  | text => exact .leaf trivial ⟨rfl, nofun⟩ (List.suffix_refl _)
  | paren inside closes =>
    have hclosing := (keeps_expect (grants_any stop _) ..).of_reading closes
    exact .node id (((hn 1 _ _ _ inside).before hclosing).after (List.suffix_cons _ _))
  | braces opens conditions =>
    obtain ⟨hpos, hvalue, hsuffix⟩ := conditions_keeps conditions
    refine .leaf trivial ⟨hpos, fun s' hs' => ?_⟩ hsuffix
    cases hs'
    exact .inr ⟨opens, hvalue⟩
  | named isName named => exact named.yields (hn 3) isName

/-- An operand yields its leaves if what nests in it does. -/
theorem operandWith_yields {operand : Parser Expr} {nested : Nat → Parser Expr}
    (ho : Yielding operand) (hn : ∀ between, Yielding (nested between)) {e : Expr}
    (h : reading (operandWith stop calls operand nested ts) = .ok (e, rest)) :
    Yields ts [e] rest := by
  cases operand_of_reading h with
  | @sign t _ _ _ _ _ signed allowed =>
    have hinner := ho _ _ _ signed
    obtain ⟨-, ⟨p, v, v', rfl, -, rfl⟩ | ⟨-, rfl⟩⟩ := applySign_eq_ok.1 allowed
    · exact hinner.sign t v'
    · exact .node id (hinner.after (List.suffix_cons _ _))
  | @primary _ _ _ mid _ start suffixes =>
    have hsuffix := (keeps_suffixes .none mid (grants_any stop _) blamable_any
      (hasRoom_any _ _)).of_reading (suffixes_iff.2 suffixes)
    exact ((start.yields hn).before hsuffix).congr suffixes.leaves

/-! ## Operators -/

/-- After every turn of the climb the leaves of the left operand start in front of the tokens
left. -/
theorem Climbs.yields {expression : Nat → Parser Expr} {level : Nat}
    (he : ∀ level, Yielding (expression level)) {lhs e : Expr} {before : List Token}
    (h : Climbs stop calls expression level lhs ts e rest) (hl : Yields before [lhs] ts) :
    Yields before [e] rest := by
  induction h with
  | done _ => exact hl
  | step _ _ modifier matching operand allowed _ ih =>
    obtain ⟨rfl, -⟩ := checkBinary_eq_ok.1 allowed
    have hmodifier := (keeps_boolModifier (grants_any stop _) _).of_reading modifier
    have hmatching := (keeps_vectorMatching (grants_any stop _) _).of_reading matching
    have hrhs := (he _ _ _ _ operand).after (hmatching.trans hmodifier)
    exact ih (.node id (hl.trans (hrhs.after (List.suffix_cons _ _))))

/-- Both operands yield their leaves, the left one first. -/
theorem expressionWith_yields {operand : Parser Expr} {expression : Nat → Parser Expr}
    (ho : Yielding operand) (he : ∀ level, Yielding (expression level)) {level : Nat} {e : Expr}
    (h : reading (expressionWith stop calls operand expression level ts) = .ok (e, rest)) :
    Yields ts [e] rest := by
  rw [reading_expressionWith] at h
  obtain ⟨⟨lhs, mid⟩, hl, h⟩ := bind_eq_ok.1 h
  exact (climb_iff.1 h).yields he (ho _ _ _ hl)

/-- What is read off the front of some tokens has its leaves there, in their order. -/
theorem levels_yield (stop calls : Nat) :
    Yielding (operand stop calls) ∧ ∀ level, Yielding (expression stop calls level) := by
  refine levels_induction ⟨?_, fun _ => ?_⟩ ?_ ?_ calls
  · exact fun ts e rest h => absurd h fail_ne_ok
  · exact fun ts e rest h => absurd h fail_ne_ok
  · exact fun _ o n ho hn ts node rest h => operandWith_yields ho hn h
  · exact fun _ o e ho he level ts node rest h => expressionWith_yields ho he h

/-- The leaves of a tree are headed by tokens, in the order of the tokens. -/
theorem parseTokens_yields {limit : Nat} {e : Expr} (h : parseTokens stop ts limit = .ok e) :
    Yields ts [e] [] :=
  (levels_yield stop limit).2 0 ts e [] (parseTokens_eq_ok.1 h)

/-! ## Names in their order -/

/-- Among the distinct names are all names but the empty one. -/
theorem mem_distinct {names : List String} {name : String} :
    name ∈ distinct names ↔ name ∈ names ∧ name ≠ "" := by
  rw [distinct, mem_addNames]
  exact or_iff_right List.not_mem_nil

/-- The names that some items have, in the order of the first items that have them. -/
theorem distinct_pairwise {α : Type} {R : α → α → Prop} (f : α → String) {as : List α}
    (h : as.Pairwise R) :
    (distinct (as.map f)).Pairwise fun name other =>
      ∃ a ∈ as, f a = name ∧ ∀ b ∈ as, f b = other → R a b := by
  induction as with
  | nil => exact .nil
  | cons a as ih =>
    obtain ⟨hfirst, has⟩ := List.pairwise_cons.1 h
    have hcons : distinct ((a :: as).map f) =
        addName [] (f a) ++ (distinct (as.map f)).filter (· ∉ addName [] (f a)) :=
      addNames_eq (addName [] (f a)) (as.map f)
    have hlater : ∀ name, name ∈ (distinct (as.map f)).filter (· ∉ addName [] (f a)) →
        name ≠ f a := by
      rintro name hname rfl
      obtain ⟨hmem, hnew⟩ := List.mem_filter.1 hname
      exact of_decide_eq_true hnew (mem_addName.2 (.inr ⟨rfl, (mem_distinct.1 hmem).2⟩))
    rw [hcons]
    refine List.pairwise_append.2 ⟨?_, ?_, fun name hname other hother => ?_⟩
    · unfold addName
      split
      · exact .nil
      · exact List.pairwise_singleton _ _
    · refine ((ih has).filter _).imp_of_mem fun {name other} _ hother hearlier => ?_
      obtain ⟨b, hb, rfl, hbefore⟩ := hearlier
      refine ⟨b, List.mem_cons_of_mem a hb, rfl, fun c hc hsame => ?_⟩
      rcases List.mem_cons.1 hc with rfl | hc
      · exact absurd hsame.symm (hlater other hother)
      · exact hbefore c hc hsame
    · obtain ⟨rfl, -⟩ := (mem_addName.1 hname).resolve_left List.not_mem_nil
      refine ⟨a, List.mem_cons_self .., rfl, fun b hb hsame => ?_⟩
      rcases List.mem_cons.1 hb with rfl | hb
      · exact absurd hsame.symm (hlater other hother)
      · exact hfirst b hb

/-! ## Texts -/

/-- A selector stands in a text with its name, or at a brace if it has none. -/
structure Selector.StandsIn (s : Selector) (text : String) : Prop where
  named : s.name ≠ "" → text.toList.extract s.pos (s.pos + s.name.length) = s.name.toList
  nameless : s.name = "" → text.toList[s.pos]? = some '\x7b'

/-- The leaves of a tree stand in a text, each behind the one before it. -/
structure Expr.LeavesIn (e : Expr) (text : String) : Prop where
  increasing : (e.leaves.map Expr.pos).Pairwise (· < ·)
  inside : ∀ n ∈ e.leaves, n.pos < text.length
  selectors : ∀ s ∈ e.selectors, s.StandsIn text
  once : e.selectors.Pairwise fun s t => s.pos < t.pos

/-- What is found are the metrics that the selectors of a tree name, in the order of the first
selectors that name them. -/
structure Found.Reports (found : Found) (e : Expr) : Prop where
  metrics : ∀ name, name ∈ found.metrics ↔ name ≠ "" ∧ ∃ s ∈ e.selectors, s.metricName = name
  explicit : ∀ s ∈ e.selectors, s.name ≠ "" → s.name ∈ found.metrics
  ordered : found.metrics.Pairwise fun name other => ∃ s ∈ e.selectors, s.metricName = name ∧
    ∀ t ∈ e.selectors, t.metricName = other → s.pos < t.pos

/-- Every token of a text is admitted in the context in front of it. -/
theorem Follows.admits_of_mem {k k' : Context} {t : Token} (h : Follows k ts k') (ht : t ∈ ts) :
    ∃ m : Context, m.Admits t.kind t.value := by
  induction h with
  | nil => cases ht
  | cons first _ ih =>
    rcases List.mem_cons.1 ht with rfl | ht
    · exact ⟨_, first⟩
    · exact ih ht

/-- Where a token of a text starts and what stands there, if it is a name or a brace. -/
theorem lexeme_of_mem {text : String} (h : lexemes text = .ok ts) {t : Token} (ht : t ∈ ts) :
    t.pos < text.length ∧
      (t.kind = .identifier → t.value ≠ "" ∧
        text.toList.extract t.pos (t.pos + t.value.length) = t.value.toList) ∧
      (t.kind = .leftBrace → text.toList[t.pos]? = some '\x7b') := by
  obtain ⟨ps, hps, rfl⟩ := exceptMap_eq_ok.1 h
  rw [← map_token_spansOf] at ht
  obtain ⟨span, hspan, rfl⟩ := List.mem_map.1 ht
  obtain ⟨source, hwhole, hsource, hstop, hlength⟩ :=
    exists_piece_of_mem (tiles_of_piecesFrom hps) List.drop_zero span hspan
  have hpos := List.length_pos_iff.2 hwhole.source_ne_nil
  simp only [Piece.source] at hpos
  have hvalue := hwhole.lexeme.2.1
  rw [String.length_toList] at hlength
  refine ⟨by omega, fun hkind => ?_, fun hkind => ?_⟩
  · have hname := hvalue (by rw [hkind]; decide)
    have hsize : span.token.value.length = source.length := by
      rw [← String.length_toList, hname]
    refine ⟨fun hempty => ?_, ?_⟩
    · rw [hempty] at hsize
      exact absurd hsize.symm (Nat.ne_of_gt hpos)
    · rw [hsize, ← hstop, hsource, hname]
  · have hbrace := hvalue (by rw [hkind]; decide)
    obtain ⟨k, hfollows, -⟩ := follows_of_piecesFrom hps
    rw [← map_token_spansOf] at hfollows
    obtain ⟨m, hadmits⟩ := hfollows.admits_of_mem (List.mem_map_of_mem hspan)
    have hmark := hadmits.opening .braces hkind
    rw [← hbrace, hmark] at hsource
    have hfirst := congrArg (fun cs : List Char => cs[0]?) hsource
    simp only [List.extract_eq_take_drop] at hfirst
    rw [List.getElem?_take_of_lt (by omega), List.getElem?_drop] at hfirst
    exact hfirst

theorem selectors_eq_filterMap (e : Expr) : e.selectors = e.leaves.filterMap fun
    | .selector s => some s
    | _ => none := by
  rw [Expr.selectors, Expr.leaves, List.filterMap_filter]
  refine List.filterMap_congr fun n _ => ?_
  cases n <;> rfl

/-- The leaves of the expression that a text is stand in the text. -/
theorem leavesIn_of_parse {text : String} {limit : Nat} {e : Expr}
    (h : parse text limit = .ok e) :
    e.LeavesIn text := by
  unfold parse at h
  split at h
  · exact absurd h fail_ne_ok
  rename_i ts hlex
  obtain ⟨heads, hheads, hs⟩ := parseTokens_yields h
  rw [List.append_nil] at hs
  rw [← Expr.leaves_eq] at hheads
  have hlexeme : ∀ n ∈ e.leaves, ∃ t ∈ ts, t.Heads n := fun n hn => by
    obtain ⟨t, ht, hhead⟩ := exists_head hheads hn
    exact ⟨t, hs.subset ht, hhead⟩
  have hincreasing : (e.leaves.map Expr.pos).Pairwise (· < ·) := by
    rw [map_pos_eq hheads]
    exact (lexemes_pairwise hlex).sublist (hs.map Token.pos)
  refine ⟨hincreasing, fun n hn => ?_, fun s hselector => ?_, ?_⟩
  · obtain ⟨t, ht, hhead⟩ := hlexeme n hn
    rw [hhead.pos]
    exact (lexeme_of_mem hlex ht).1
  · obtain ⟨t, ht, hhead⟩ := hlexeme _ (Expr.mem_leaves_selector.2 hselector)
    obtain ⟨-, hname, hbrace⟩ := lexeme_of_mem hlex ht
    have hpos : s.pos = t.pos := hhead.pos
    rcases hhead.selector s rfl with ⟨hkind, hvalue⟩ | ⟨hkind, hempty⟩
    · refine ⟨fun _ => ?_, fun hempty => absurd (hvalue.trans hempty) (hname hkind).1⟩
      rw [hpos, ← hvalue]
      exact (hname hkind).2
    · exact ⟨fun hown => absurd hempty hown, fun _ => hpos ▸ hbrace hkind⟩
  · rw [selectors_eq_filterMap, List.pairwise_filterMap]
    refine (List.pairwise_map.1 hincreasing).imp fun {m n} hlt s hm t hn => ?_
    split at hm
    · split at hn
      · cases hm
        cases hn
        exact hlt
      · cases hn
    · cases hm

/-- The leaves of a query stand in its text, each behind the one before it, and so do the selectors
among them with their names. The metrics that are found in an expression are those that the
selectors name, in the order in which they first stand there. -/
theorem parse_leaves {text : String} {limit : Nat} {e : Expr} (h : parse text limit = .ok e) :
    e.LeavesIn text ∧ ∀ query, stripMacros query = text →
      ∃ found, (findMetrics [query] limit).outcome = .ok found ∧ found.Reports e := by
  have hleaves := leavesIn_of_parse h
  refine ⟨hleaves, ?_⟩
  rintro query rfl
  have hnames : namesOf limit query = e.selectors.map Selector.metricName := by rw [namesOf, h]
  have hvalid : ∀ other ∈ [query], OnlyMalformed (parse (stripMacros other) limit) := by
    simpa [h] using onlyMalformed_ok e
  have hfound :
      (foundIn limit [query]).metrics = distinct (e.selectors.map Selector.metricName) := by
    simp [foundIn, hnames]
  have hmem : ∀ name, name ∈ (foundIn limit [query]).metrics ↔
      name ≠ "" ∧ ∃ s ∈ e.selectors, s.metricName = name := fun name => by
    rw [hfound, mem_distinct, List.mem_map, and_comm]
  refine ⟨foundIn limit [query], findMetrics_eq hvalid, hmem, fun s hs hown => ?_, ?_⟩
  · exact (hmem s.name).2 ⟨hown, s, hs, if_pos hown⟩
  · rw [hfound]
    exact distinct_pairwise Selector.metricName hleaves.once

theorem parse_leaves_rate :
    ∃ e, parse "rate(\x7bjob=\"api\"\x7d[5m]) > -2 + sum(up)" = .ok e ∧
      e.LeavesIn "rate(\x7bjob=\"api\"\x7d[5m]) > -2 + sum(up)" ∧
      ∃ found, (findMetrics ["rate(\x7bjob=\"api\"\x7d[$__interval]) > -2 + sum(up)"]).outcome =
        .ok found ∧ found.Reports e := by
  have ⟨e, he⟩ : ∃ e, parse "rate(\x7bjob=\"api\"\x7d[5m]) > -2 + sum(up)" = .ok e :=
    exists_of_isOk (by decide +kernel)
  have hstrip : stripMacros "rate(\x7bjob=\"api\"\x7d[$__interval]) > -2 + sum(up)" =
      "rate(\x7bjob=\"api\"\x7d[5m]) > -2 + sum(up)" := by
    decide +kernel
  exact ⟨e, he, (parse_leaves he).1, (parse_leaves he).2 _ hstrip⟩

end PanelExport.Query
