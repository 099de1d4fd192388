import PanelExport.Proofs.Query.Operands
import PanelExport.Proofs.Query.Sources

/-!
# The places of a tree

The leaves of a tree and its binary operators stand where their tokens stand, and the parsers take
the tokens from left to right. So the places of a parsed tree, listed with every operator between
its operands, only grow.

* `levels_covers`: what is read off the front of some tokens has its places there, in their order.
* `lexemes_pairwise`: every token stands behind the one before it.
* `parse_places`: the places of the tree of a text only grow.
-/

namespace PanelExport.Query

/-! ## Leaves and operators -/

namespace Expr

/-- A number, a text or a selector. -/
def IsLeaf : Expr → Prop
  | .number _ _ | .text _ _ | .selector _ => True
  | _ => False

mutual

/-- The places of the leaves and of the binary operators, from left to right. -/
def places : Expr → List Nat
  | .number p _ => [p]
  | .text p _ => [p]
  | .selector s => [s.pos]
  | .matrix _ s _ => [s.pos]
  | .subquery _ e _ _ => e.places
  | .call _ _ args _ => placesOfAll args
  | .aggregate _ _ e parameter? _ => placesOfParameter parameter? ++ e.places
  | .binary p _ lhs rhs _ => lhs.places ++ p :: rhs.places
  | .unary _ _ e => e.places
  | .paren _ e => e.places

/-- The places of some trees, one after the other. -/
def placesOfAll : List Expr → List Nat
  | [] => []
  | e :: es => e.places ++ placesOfAll es

/-- The places of a parameter, if there is one. -/
def placesOfParameter : Option Expr → List Nat
  | none => []
  | some e => e.places

end

theorem placesOfAll_append (es fs : List Expr) :
    placesOfAll (es ++ fs) = placesOfAll es ++ placesOfAll fs := by
  induction es with
  | nil => rfl
  | cons e es ih => simp [placesOfAll, ih]

theorem placesOfParameter_eq (parameter? : Option Expr) :
    placesOfParameter parameter? = placesOfAll parameter?.toList := by
  cases parameter? <;> simp [placesOfParameter, placesOfAll]

/-- The places in a tree are among those of its row, in order. -/
theorem sublist_placesOfAll {e : Expr} {es : List Expr} (h : e ∈ es) :
    e.places.Sublist (placesOfAll es) := by
  induction es with
  | nil => cases h
  | cons f es ih =>
    rcases List.mem_cons.1 h with rfl | h
    · exact List.sublist_append_left _ _
    · exact (ih h).trans (List.sublist_append_right _ _)

/-- The places of a child are among those of its parent, in their order. -/
theorem places_of_mem_children {e c : Expr} (h : c ∈ e.children) : c.places.Sublist e.places := by
  cases e with
  | number => cases h
  | text => cases h
  | selector => cases h
  | matrix p s r =>
    obtain rfl := List.mem_singleton.1 h
    simp [places]
  | call => exact sublist_placesOfAll h
  | aggregate p op e parameter? g =>
    have he : (aggregate p op e parameter? g).places = placesOfAll (parameter?.toList ++ [e]) := by
      simp [places, placesOfAll_append, placesOfParameter_eq, placesOfAll]
    exact he ▸ sublist_placesOfAll h
  | binary p op lhs rhs b =>
    rcases (by simpa [children] using h : c = lhs ∨ c = rhs) with rfl | rfl
    · exact List.sublist_append_left _ _
    · exact (List.sublist_cons_self _ _).trans (List.sublist_append_right _ _)
  | _ =>
    obtain rfl := List.mem_singleton.1 h
    exact List.Sublist.refl _

/-- The places in a node are among those of the tree that it stands in, in order. -/
theorem places_of_mem_listing {n e : Expr} (h : n ∈ e.listing) : n.places.Sublist e.places := by
  induction e using childInduction with
  | node e ih =>
    rcases mem_listing.1 h with rfl | ⟨c, hc, hn⟩
    · exact List.Sublist.refl _
    · exact (ih c hc hn).trans (places_of_mem_children hc)

/-- A leaf has a place. -/
theorem IsLeaf.pos_mem {n : Expr} (h : n.IsLeaf) : n.pos ∈ n.places := by
  cases n <;> simp_all [IsLeaf, places, pos]

end Expr

/-! ## What is read and what is left -/

/-- Places stand in front of the tokens left, and all of them among the tokens there were. -/
def Covers (ts : List Token) (places : List Nat) (rest : List Token) : Prop :=
  (places ++ rest.map Token.pos).Sublist (ts.map Token.pos)

namespace Covers

variable {ts mid rest : List Token} {ps qs : List Nat} {t : Token}

theorem refl (ts : List Token) : Covers ts [] ts :=
  List.Sublist.refl _

/-- Places that are covered one behind the other are covered together. -/
theorem trans (h : Covers ts ps mid) (h' : Covers mid qs rest) : Covers ts (ps ++ qs) rest := by
  unfold Covers at *
  rw [List.append_assoc]
  exact ((List.Sublist.refl ps).append h').trans h

/-- A token that leaves no place. -/
theorem skip (t : Token) (h : Covers ts ps rest) : Covers (t :: ts) ps rest :=
  List.Sublist.trans h (List.sublist_cons_self _ _)

/-- A token that leaves its place. -/
theorem place (t : Token) (h : Covers ts ps rest) : Covers (t :: ts) (t.pos :: ps) rest :=
  h.cons_cons t.pos

/-- What is read behind something that leaves no place. -/
theorem after (h : Covers ts [] mid) (h' : Covers mid ps rest) : Covers ts ps rest :=
  h.trans h'

/-- What leaves no place, read behind something that does. -/
theorem before (h : Covers ts ps mid) (h' : Covers mid [] rest) : Covers ts ps rest :=
  List.append_nil ps ▸ h.trans h'

/-- A sign takes the place of the number behind it. -/
theorem sign (t : Token) {p : Nat} (h : Covers ts (p :: ps) rest) :
    Covers (t :: ts) (t.pos :: ps) rest :=
  place t (List.Sublist.trans (List.sublist_cons_self _ _) h)

end Covers

/-- A parser of trees leaves the places of what it reads. -/
def Placed (p : Parser Expr) : Prop :=
  ∀ ts e rest, Reads p ts e rest → Covers ts e.places rest

/-- The items of a row cover their places one behind the other. -/
theorem Separated.covers {α : Type} {R : List Token → α → List Token → Prop} {close : Kind}
    {f : List α → List Nat} (nil : f [] = [])
    (cons : ∀ ts a as mid rest, R ts a mid → Covers mid (f as) rest → Covers ts (f (a :: as)) rest)
    {ts rest : List Token} {as : List α} (h : Separated R close ts as rest) :
    Covers ts (f as) rest := by
  have none : ∀ rest, Covers rest (f []) rest := fun rest => nil ▸ Covers.refl rest
  induction h with
  | closed _ => exact (none _).skip _
  | last _ first _ => exact cons _ _ _ _ _ first ((none _).skip _)
  | more _ first _ _ ih => exact cons _ _ _ _ _ first (ih.skip _)

variable {stop calls : Nat} {ts rest : List Token}

/-! ## Parts of nodes -/

theorem expect_covers {kind : Kind} {place : Place} {t : Token}
    (h : reading (expect stop kind place ts) = .ok (t, rest)) : Covers ts [] rest := by
  obtain ⟨-, rfl⟩ := reading_expect_eq_ok.1 h
  exact (Covers.refl _).skip t

/-- A token that goes into no place of the tree covers none. -/
theorem take?_covers {p : Token → Bool} {q : Parsed Token ts.length} (h : take? p ts = some q) :
    Covers ts [] q.rest := by
  have hs := (Covers.refl q.rest).skip q.value
  rwa [← (take?_eq_some_iff.1 h).2] at hs

/-- Items of which none leaves a place. -/
theorem separated_covers {α : Type} {close : Kind} {place : Place} {item : Parser α}
    (hc : close ≠ .comma) (hi : ∀ ts a rest, Reads item ts a rest → Covers ts [] rest) {as : List α}
    (h : reading (separated stop close place item ts) = .ok (as, rest)) : Covers ts [] rest :=
  ((separated_iff hc).1 h).covers (f := fun _ => []) rfl
    fun _ _ _ _ _ first others => (hi _ _ _ first).after others

theorem label_covers {place : Place} {s : String}
    (h : reading (label stop place ts) = .ok (s, rest)) : Covers ts [] rest := by
  obtain ⟨t, -, -, rfl⟩ := reading_label_eq_ok.1 h
  exact (Covers.refl _).skip t

theorem labelList_covers {place : Place} {labels : List String}
    (h : reading (labelList stop place ts) = .ok (labels, rest)) : Covers ts [] rest := by
  rw [reading_labelList] at h
  obtain ⟨⟨_, mid⟩, ho, h⟩ := bind_eq_ok.1 h
  exact (expect_covers ho).after (separated_covers (by decide) (fun _ _ _ => label_covers) h)

/-- A quoted name covers no place. -/
theorem quotedName?_covers {name : String} {q : Parsed Matcher ts.length}
    (h : quotedName? stop name ts = some (.ok q)) : Covers ts [] q.rest := by
  obtain ⟨t, ht, h⟩ := Option.bind_eq_some_iff.1 h
  simp only at h
  split at h
  · split at h
    · cases h
      exact take?_covers ht
    · cases h
  · cases h

theorem matcher_covers {name : String} {m : Matcher}
    (h : Reads (matcher stop name) ts m rest) : Covers ts [] rest := by
  obtain ⟨q, hq, -, rfl⟩ := reading_eq_ok.1 h
  unfold matcher at hq
  simp only at hq
  split at hq
  · rename_i result hr
    exact quotedName?_covers (hq ▸ hr)
  · split at hq
    · exact absurd hq fail_ne_ok
    · rename_i label hl
      split at hq
      · exact absurd hq fail_ne_ok
      · rename_i op ho
        obtain ⟨value, hv, hq⟩ := bind_eq_ok.1 hq
        cases hq
        exact (take?_covers hl).after ((take?_covers ho).after
          (expect_covers (reading_eq_ok.2 ⟨value, hv, rfl, rfl⟩)))

/-- A selector has the place that it was given, and its conditions cover no other. -/
theorem conditions_covers {pos : Nat} {name : String} {s : Selector}
    (h : reading (conditions stop pos name ts) = .ok (s, rest)) :
    s.pos = pos ∧ Covers ts [] rest := by
  obtain ⟨ms, hms, rfl, -⟩ := conditions_eq_ok.1 h
  exact ⟨rfl, separated_covers (by decide) (fun _ _ _ => matcher_covers) hms⟩

theorem Selects.covers {pos : Nat} {name : String} {s : Selector}
    (h : Selects stop pos name ts s rest) : s.pos = pos ∧ Covers ts [] rest := by
  cases h with
  | alone _ => exact ⟨rfl, Covers.refl _⟩
  | braces conditions =>
    obtain ⟨hp, hc⟩ := conditions_covers conditions
    exact ⟨hp, hc.skip _⟩

theorem offset_covers (h : reading (offset stop ts) = .ok ((), rest)) : Covers ts [] rest := by
  rw [reading_offset] at h
  obtain ⟨⟨_, mid⟩, he, h⟩ := bind_eq_ok.1 h
  cases h
  cases hs : take? (fun t => (sign? t).isSome) ts with
  | some sign =>
    rw [hs] at he
    exact (take?_covers hs).after (expect_covers he)
  | none =>
    rw [hs] at he
    exact expect_covers he

theorem timestamp_covers (h : reading (timestamp stop ts) = .ok ((), rest)) :
    Covers ts [] rest := by
  obtain ⟨q, hq, -, rfl⟩ := reading_eq_ok.1 h
  have expected : ∀ {ts kind place} {p : Parsed Token ts.length},
      expect stop kind place ts = .ok p → Covers ts [] p.rest :=
    fun he => expect_covers (reading_eq_ok.2 ⟨_, he, rfl, rfl⟩)
  unfold timestamp at hq
  split at hq
  · rename_i t ht
    cases hq
    exact take?_covers ht
  · split at hq
    · rename_i sign hs
      obtain ⟨t, ht, hq⟩ := bind_eq_ok.1 hq
      cases hq
      exact (take?_covers hs).after (expected ht)
    · split at hq
      · rename_i word hw
        obtain ⟨opening, ho, hq⟩ := bind_eq_ok.1 hq
        obtain ⟨closing, hc, hq⟩ := bind_eq_ok.1 hq
        cases hq
        exact (take?_covers hw).after ((expected ho).after (expected hc))
      · exact absurd hq fail_ne_ok

/-- The step of a subquery covers no place. -/
theorem subqueryStep_covers (ts : List Token) : Covers ts [] (subqueryStep ts).rest := by
  unfold subqueryStep
  split
  · rename_i step hs
    exact take?_covers hs
  · exact Covers.refl ts

/-- A range adds no place to those of what it is taken of. -/
theorem Ranged.covers {node e : Expr} (h : Ranged stop calls node ts e rest) :
    e.places = node.places ∧ Covers ts [] rest := by
  cases h with
  | matrix duration closes =>
    exact ⟨by simp [Expr.places], (expect_covers duration).after (expect_covers closes)⟩
  | subquery _ _ duration closes =>
    exact ⟨by simp [Expr.places], (expect_covers duration).after
      (((subqueryStep_covers _).after (expect_covers closes)).skip _)⟩

/-- Ranges and modifiers leave no place. -/
theorem Suffixed.covers {node e : Expr} {ms : Modifiers}
    (h : Suffixed stop calls node ms ts e rest) :
    e.places = node.places ∧ Covers ts [] rest := by
  induction h with
  | done _ => exact ⟨rfl, Covers.refl _⟩
  | range _ _ range _ ih =>
    obtain ⟨he, hc⟩ := (ranged_of_reading range).covers
    exact ⟨ih.1.trans he, (hc.after ih.2).skip _⟩
  | offset _ _ amount _ ih => exact ⟨ih.1, ((offset_covers amount).after ih.2).skip _⟩
  | atSign _ _ time _ ih => exact ⟨ih.1, ((timestamp_covers time).after ih.2).skip _⟩

theorem boolModifier_covers {op : BinaryOp} {returnBool : Bool}
    (h : reading (boolModifier op ts) = .ok (returnBool, rest)) : Covers ts [] rest := by
  obtain ⟨q, hq, -, rfl⟩ := reading_eq_ok.1 h
  unfold boolModifier at hq
  split at hq
  · cases hq
    exact Covers.refl ts
  · rename_i word hw
    split at hq
    · cases hq
      exact take?_covers hw
    · exact absurd hq fail_ne_ok

theorem vectorMatching_covers {op : BinaryOp}
    (h : reading (vectorMatching stop op ts) = .ok ((), rest)) : Covers ts [] rest := by
  obtain ⟨q, hq, -, rfl⟩ := reading_eq_ok.1 h
  have listed : ∀ {ts place} {p : Parsed (List String) ts.length},
      labelList stop place ts = .ok p → Covers ts [] p.rest :=
    fun hl => labelList_covers (reading_eq_ok.2 ⟨_, hl, rfl, rfl⟩)
  unfold vectorMatching at hq
  split at hq
  · cases hq
    exact Covers.refl ts
  · rename_i word hw
    obtain ⟨labels, hl, hq⟩ := bind_eq_ok.1 hq
    have hlabels := (take?_covers hw).after (listed hl)
    simp only at hq
    split at hq
    · cases hq
      exact hlabels
    · rename_i group hg
      have hgroup := hlabels.after (take?_covers hg)
      split at hq
      · exact absurd hq fail_ne_ok
      · split at hq
        · cases hq
          exact hgroup
        · obtain ⟨included, hi, hq⟩ := bind_eq_ok.1 hq
          cases hq
          exact hgroup.after (listed hi)

theorem grouping_covers {g? : Option Grouping}
    (h : reading (grouping stop ts) = .ok (g?, rest)) : Covers ts [] rest := by
  rw [reading_grouping] at h
  split at h
  · cases h
    exact Covers.refl ts
  · rename_i word hw
    obtain ⟨⟨labels, mid⟩, hl, h⟩ := bind_eq_ok.1 h
    cases h
    exact (take?_covers hw).after (labelList_covers hl)

/-! ## Operands -/

/-- The arguments of a call cover their places in order. -/
theorem arguments_covers {place : Place} {argument : Parser Expr} (ha : Placed argument)
    {args : List Expr}
    (h : reading (separated stop .rightParen place argument ts) = .ok (args, rest)) :
    Covers ts (Expr.placesOfAll args) rest :=
  ((separated_iff (by decide)).1 h).covers (f := Expr.placesOfAll) rfl
    fun _ _ _ _ _ first others => (ha _ _ _ first).trans others

/-- A call covers the places of its arguments. -/
theorem Called.covers {argument : Parser Expr} {function : Token} {e : Expr}
    (h : Called stop argument function ts e rest) (ha : Placed argument) :
    Covers ts e.places rest := by
  cases h with
  | call _ opens arguments _ => exact (expect_covers opens).after (arguments_covers ha arguments)

/-- An aggregation covers the places of its arguments, the parameter in front. -/
theorem Aggregates.covers {argument : Parser Expr} {pos : Nat} {op : AggregateOp} {e : Expr}
    (h : Aggregates stop argument pos op ts e rest) (ha : Placed argument) :
    Covers ts e.places rest := by
  obtain ⟨hl, ho, hargs, ht, -, hc⟩ := h
  obtain ⟨inner, parameter?, rfl, rfl, -, -⟩ := checkAggregate_eq_ok.1 hc
  have hplaces : ∀ g, (Expr.aggregate pos op inner parameter? g).places =
      Expr.placesOfAll (parameter?.toList ++ [inner]) := by
    simp [Expr.places, Expr.placesOfAll_append, Expr.placesOfParameter_eq, Expr.placesOfAll]
  rw [hplaces]
  exact (grouping_covers hl).after ((expect_covers ho).after
    ((arguments_covers ha hargs).before (grouping_covers ht)))

/-- What a name starts: the name itself may leave its place, and then nothing else does. -/
theorem Named.covers {argument : Parser Expr} {name : Token} {e : Expr}
    (h : Named stop argument name ts e rest) (ha : Placed argument) :
    Covers (name :: ts) e.places rest := by
  cases h with
  | aggregate aggregates => exact (aggregates.covers ha).skip name
  | call called => exact (called.covers ha).skip name
  | number => exact (Covers.refl ts).place name
  | selector selects =>
    obtain ⟨hp, hc⟩ := selects.covers
    simpa [Expr.places, hp] using hc.place name

/-- A primary covers its own place, or those of what nests in it. -/
theorem Primary.covers {nested : Nat → Parser Expr} {e : Expr}
    (h : Primary stop nested ts e rest) (hn : ∀ between, Placed (nested between)) :
    Covers ts e.places rest := by
  cases h with
  | number _ _ => exact (Covers.refl _).place _
  | text => exact (Covers.refl _).place _
  | paren inside closes => exact ((hn 1 _ _ _ inside).before (expect_covers closes)).skip _
  | @braces t _ _ _ _ conditions =>
    obtain ⟨hp, hc⟩ := conditions_covers conditions
    simpa [Expr.places, hp] using hc.place t
  | named _ named => exact named.covers (hn 3)

/-- An operand covers its places in order if what nests in it does. -/
theorem operandWith_covers {operand : Parser Expr} {nested : Nat → Parser Expr}
    (ho : Placed operand) (hn : ∀ between, Placed (nested between)) {e : Expr}
    (h : reading (operandWith stop calls operand nested ts) = .ok (e, rest)) :
    Covers ts e.places rest := by
  cases operand_of_reading h with
  | @sign t _ _ _ _ _ signed allowed =>
    have hinner := ho _ _ _ signed
    obtain ⟨-, ⟨p, v, v', rfl, -, rfl⟩ | ⟨-, rfl⟩⟩ := applySign_eq_ok.1 allowed
    · exact hinner.sign t
    · exact hinner.skip t
  | primary start suffixes =>
    obtain ⟨hplaces, hc⟩ := suffixes.covers
    rw [hplaces]
    exact (start.covers hn).before hc

/-! ## Operators -/

/-- After every turn of the climb the left operand has its places in front of the tokens left. -/
theorem Climbs.covers {expression : Nat → Parser Expr} {level : Nat}
    (he : ∀ level, Placed (expression level)) {lhs e : Expr} {before : List Token}
    (h : Climbs stop calls expression level lhs ts e rest) (hl : Covers before lhs.places ts) :
    Covers before e.places rest := by
  induction h with
  | done _ => exact hl
  | step _ _ modifier matching operand allowed _ ih =>
    obtain ⟨rfl, -⟩ := checkBinary_eq_ok.1 allowed
    exact ih (hl.trans (((boolModifier_covers modifier).after
      ((vectorMatching_covers matching).after (he _ _ _ _ operand))).place _))

/-- Both operands cover their places, and the operator between them its own. -/
theorem expressionWith_covers {operand : Parser Expr} {expression : Nat → Parser Expr}
    (ho : Placed operand) (he : ∀ level, Placed (expression level)) {level : Nat} {e : Expr}
    (h : reading (expressionWith stop calls operand expression level ts) = .ok (e, rest)) :
    Covers ts e.places rest := by
  rw [reading_expressionWith] at h
  obtain ⟨⟨lhs, mid⟩, hl, h⟩ := bind_eq_ok.1 h
  exact (climb_iff.1 h).covers he (ho _ _ _ hl)

/-! ## Texts -/

/-- What is read off the front of some tokens has its places there, in their order. -/
theorem levels_covers (stop calls : Nat) :
    Placed (operand stop calls) ∧ ∀ level, Placed (expression stop calls level) := by
  refine levels_induction ⟨?_, fun _ => ?_⟩ ?_ ?_ calls
  · exact fun ts e rest h => absurd h fail_ne_ok
  · exact fun ts e rest h => absurd h fail_ne_ok
  · exact fun _ o n ho hn ts node rest h => operandWith_covers ho hn h
  · exact fun _ o e ho he level ts node rest h => expressionWith_covers ho he h

/-- The places of leaves and operators are places of tokens, in the order of the tokens. -/
theorem parseTokens_covers {ts : List Token} {limit : Nat} {e : Expr}
    (h : parseTokens stop ts limit = .ok e) : e.places.Sublist (ts.map Token.pos) := by
  have hc := (levels_covers stop limit).2 0 ts e [] (parseTokens_eq_ok.1 h)
  simpa [Covers] using hc

/-- Every token of a text stands behind the one before it. -/
theorem lexemes_pairwise {text : String} {ts : List Token} (h : lexemes text = .ok ts) :
    (ts.map Token.pos).Pairwise (· < ·) := by
  obtain ⟨ps, hps, rfl⟩ := exceptMap_eq_ok.1 h
  have hincreasing := (lossless_of_tiles (tiles_of_piecesFrom hps)).increasing
  rw [← map_token_spansOf, List.map_map]
  exact (List.pairwise_append.1 hincreasing).1

/-- The places of the tree of a text only grow. -/
theorem parse_places {text : String} {limit : Nat} {e : Expr} (h : parse text limit = .ok e) :
    e.places.Pairwise (· < ·) := by
  unfold parse at h
  split at h
  · exact absurd h fail_ne_ok
  · rename_i ts ht
    exact (lexemes_pairwise ht).sublist (parseTokens_covers h)

end PanelExport.Query
