import PanelExport.Proofs.Query.Nodes

/-!
# Parsing undoes printing

The text of a tree is parsed as that tree, with the places of the text. By induction over the tree
the tokens of its words are read back at every level of the grammar that the root of the tree
belongs to.

* `Rereads`, `Expr.ReadsBack`: tokens that are read as a tree.
* `Expr.reread`: every tree that can be printed is read back from its words.
* `parse_print`: the text of a tree is parsed as the tree.
-/

namespace PanelExport.Query

variable {stop : Nat} {ts : List Token}

/-! ## Trees -/

namespace Expr

/-- A tree that a range may stand behind, if its type allows that. -/
def TakesRange : Expr → Prop
  | .selector _ => True
  | .call _ _ _ _ => True
  | .aggregate _ _ _ _ _ => True
  | .paren _ _ => True
  | _ => False

end Expr

/-- The tokens are read as a tree that differs in its places alone, at every level that the tree
belongs to. -/
structure Rereads (stop : Nat) (ts : List Token) (e e' : Expr) : Prop where
  like : e'.Like e
  expression : ReadsExpression stop ts e'
  operand : e.rootOp? = none → ReadsOperand stop ts e'
  primary : e.TakesRange → ReadsPrimary stop ts e'

theorem ReadsPrimary.rereads {e e' : Expr} (h : ReadsPrimary stop ts e') (hl : e'.Like e) :
    Rereads stop ts e e' :=
  ⟨hl, h.operand.expression, fun _ => h.operand, fun _ => h⟩

theorem ReadsOperand.rereads {e e' : Expr} (h : ReadsOperand stop ts e') (hl : e'.Like e)
    (hn : ¬ e.TakesRange) : Rereads stop ts e e' :=
  ⟨hl, h.expression, fun _ => h, fun ht => absurd ht hn⟩

/-- The tokens of the words of a tree are read as the tree. -/
def Expr.ReadsBack (stop : Nat) (e : Expr) : Prop :=
  ∀ ⦃ts : List Token⦄, Stand ts e.words → ∃ e', Rereads stop ts e e'

theorem Expr.ReadsBack.expression {e : Expr} (h : e.ReadsBack stop) (hs : Stand ts e.words) :
    ∃ e' : Expr, e'.Like e ∧ ReadsExpression stop ts e' :=
  (h hs).imp fun _ he => ⟨he.like, he.expression⟩

/-! ## One form after the other -/

section Forms

variable {p : Nat} {e : Expr} {range : String}

theorem readsBack_matrix {s : Selector} (h : (Expr.matrix p s range).Printable) :
    (Expr.matrix p s range).ReadsBack stop := by
  intro ts hs
  have hselector : (Expr.selector s).Printable := h.child (List.mem_singleton_self _)
  obtain ⟨⟨hw, -, hn⟩, -⟩ := Expr.printable_iff.1 hselector
  obtain ⟨us, vs, rfl, hus, hvs⟩ := stand_append.1 hs
  obtain ⟨bracket, vs, rfl, hbracket, hvs⟩ := stand_cons.1 hvs
  obtain ⟨amount, vs, rfl, hamount, hvs⟩ := stand_cons.1 hvs
  obtain ⟨closing, rfl, hclosing⟩ := stand_single.1 hvs
  obtain ⟨pos, hread⟩ := readsPrimary_selector stop hw hn hus
  exact ⟨_, (readsOperand_matrix hread hbracket.1 hamount hclosing.1).rereads rfl id⟩

theorem readsBack_subquery {step? : Option String} (h : (Expr.subquery p e range step?).Printable)
    (he : e.ReadsBack stop) : (Expr.subquery p e range step?).ReadsBack stop := by
  intro ts hs
  obtain ⟨⟨htype, -, ⟨hroot, hsign⟩, -⟩, -⟩ := Expr.printable_iff.1 h
  -- A tree of this type that is no sign and no operator is one that a range may stand behind.
  have htakes : e.TakesRange := by
    cases e <;> simp_all [Expr.TakesRange, Expr.type, Expr.rootOp?, Expr.WellTyped]
  rw [Expr.words, List.append_assoc] at hs
  obtain ⟨us, vs, rfl, hus, hvs⟩ := stand_append.1 hs
  obtain ⟨bracket, vs, rfl, hbracket, hvs⟩ := stand_cons.1 hvs
  obtain ⟨amount, vs, rfl, hamount, hvs⟩ := stand_cons.1 hvs
  obtain ⟨colon, vs, rfl, hcolon, hvs⟩ := stand_cons.1 hvs
  obtain ⟨steps, last, rfl, hsteps, hlast⟩ := stand_append.1 hvs
  obtain ⟨closing, rfl, hclosing⟩ := stand_single.1 hlast
  obtain ⟨e', he⟩ := he hus
  have hread := readsOperand_subquery (he.primary htakes) (he.like.type_eq.trans htype)
    hbracket.1 hamount hcolon.1 hsteps hclosing.1
  exact ⟨_, hread.rereads
    (by simp only [Expr.Like, Expr.unplaced, show e'.unplaced = _ from he.like]) id⟩

theorem readsBack_call {function : String} {args : List Expr} {returns : ValueType}
    (h : (Expr.call p function args returns).Printable) (ha : ∀ a ∈ args, a.ReadsBack stop) :
    (Expr.call p function args returns).ReadsBack stop := by
  intro ts hs
  obtain ⟨⟨⟨s, hsignature, haccepts, rfl⟩, -⟩, hchildren⟩ := Expr.printable_iff.1 h
  rw [Expr.words, Expr.wordsOfAll_eq] at hs
  obtain ⟨name, us, rfl, hname, hus⟩ := stand_cons.1 hs
  obtain ⟨opening, vs, closing, rfl, hopening, hargs, hclosing⟩ := stand_enclosed.1 hus
  obtain ⟨args', hlike, hread⟩ := readsArguments stop
    (fun a hmem _ hts => (ha a hmem).expression hts) hchildren hargs
  rw [← map_type_eq hlike] at haccepts
  exact ⟨_, (readsPrimary_call hsignature haccepts hname hopening.1 hread hclosing.1).rereads
    (by simp only [Expr.Like, Expr.unplaced, Expr.unplacedAll_eq, map_unplaced_eq hlike])⟩

theorem readsBack_aggregate {op : AggregateOp} {parameter? : Option Expr} {g : Grouping}
    (h : (Expr.aggregate p op e parameter? g).Printable) (he : e.ReadsBack stop)
    (hp : ∀ a ∈ parameter?, a.ReadsBack stop) :
    (Expr.aggregate p op e parameter? g).ReadsBack stop := by
  intro ts hs
  obtain ⟨⟨⟨htype, hparameter⟩, -⟩, hchildren⟩ := Expr.printable_iff.1 h
  rw [Expr.words, Expr.wordsOfParameter_eq, List.append_assoc] at hs
  obtain ⟨names, vs, rfl, hnames, hvs⟩ := stand_append.1 hs
  obtain ⟨name, gs, rfl, hname, hgs⟩ := stand_cons.1 hnames
  obtain ⟨opening, vs, closing, rfl, hopening, hargs, hclosing⟩ := stand_enclosed.1 hvs
  have hargs : Stand vs (listed ((parameter?.toList ++ [e]).map Expr.words)) := by
    simpa using hargs
  have hreads : ∀ a ∈ parameter?.toList ++ [e], ∀ ts, Stand ts a.words →
      ∃ a' : Expr, a'.Like a ∧ ReadsExpression stop ts a' := by
    intro a ha ts hts
    rw [List.mem_append, Option.mem_toList, List.mem_singleton] at ha
    rcases ha with ha | rfl
    · exact (hp a ha).expression hts
    · exact he.expression hts
  obtain ⟨args', hlike, hread⟩ := readsArguments stop hreads hchildren hargs
  obtain ⟨parameter'?, e', rfl, he, hunplaced, htypes⟩ := aggregateArguments_like hlike
  exact ⟨_, (readsPrimary_aggregate (he.type_eq.trans htype) (htypes.trans hparameter) hname hgs
    hopening.1 hread hclosing.1).rereads (by simp only [Expr.Like, Expr.unplaced,
      Expr.unplacedParameter_eq, hunplaced, show e'.unplaced = _ from he])⟩

theorem readsBack_binary {op : BinaryOp} {lhs rhs : Expr} {returnBool : Bool}
    (h : (Expr.binary p op lhs rhs returnBool).Printable) (hl : lhs.ReadsBack stop)
    (hr : rhs.ReadsBack stop) : (Expr.binary p op lhs rhs returnBool).ReadsBack stop := by
  intro ts hs
  obtain ⟨⟨⟨haccepts, hcomparison⟩, ⟨hleft, hright⟩, -⟩, -⟩ := Expr.printable_iff.1 h
  have hrhs : rhs.Printable := h.child (by simp [Expr.children])
  rw [Expr.words, List.append_assoc] at hs
  obtain ⟨us, vs, rfl, hus, hvs⟩ := stand_append.1 hs
  obtain ⟨t, vs, rfl, ht, hvs⟩ := stand_cons.1 hvs
  obtain ⟨bools, vs, rfl, hbools, hvs⟩ := stand_append.1 hvs
  obtain ⟨lhs', hl⟩ := hl hus
  obtain ⟨rhs', hr⟩ := hr hvs
  have hstart : ∃ u us', vs = u :: us' ∧ u.StartsOperand := by
    obtain ⟨w, ws, hws, hstarts⟩ := Expr.words_start hrhs
    obtain ⟨u, us', rfl, hu, -⟩ := stand_cons.1 (hws ▸ hvs)
    exact ⟨u, us', rfl, hu.startsOperand hstarts⟩
  rw [← hl.like.type_eq, ← hr.like.type_eq] at haccepts
  rw [← hl.like.rootOp?_eq] at hleft
  rw [← hr.like.rootOp?_eq] at hright
  have hread := readsExpression_binary hl.expression hr.expression hstart ht hbools
    ⟨haccepts, hcomparison⟩ ⟨hleft, hright⟩
  exact ⟨_, by simp only [Expr.Like, Expr.unplaced, show lhs'.unplaced = _ from hl.like,
    show rhs'.unplaced = _ from hr.like], hread, fun h => absurd h (by simp [Expr.rootOp?]),
    False.elim⟩

theorem readsBack_unary {sign : Sign} (h : (Expr.unary p sign e).Printable)
    (he : e.ReadsBack stop) : (Expr.unary p sign e).ReadsBack stop := by
  intro ts hs
  obtain ⟨⟨⟨htype, hn⟩, hroot, -⟩, -⟩ := Expr.printable_iff.1 h
  obtain ⟨t, us, rfl, ht, hus⟩ := stand_cons.1 hs
  obtain ⟨e', he⟩ := he hus
  rw [← he.like.type_eq] at htype
  rw [← he.like.isNumber_iff] at hn
  exact ⟨_, (readsOperand_unary (he.operand hroot) htype hn ht).rereads
    (by simp only [Expr.Like, Expr.unplaced, show e'.unplaced = _ from he.like]) id⟩

end Forms

/-- Every tree that can be printed is read back from its words. -/
theorem Expr.reread (stop : Nat) {e : Expr} (h : e.Printable) : e.ReadsBack stop := by
  induction e using Expr.induction with
  | number p value =>
    intro ts hs
    obtain ⟨pos, hread⟩ := readsOperand_number stop (printable_iff.1 h).1.2.2 hs
    exact ⟨_, hread.rereads rfl id⟩
  | text p value =>
    intro ts hs
    obtain ⟨t, rfl, ht⟩ := stand_single.1 hs
    exact ⟨_, (readsPrimary_text ht).rereads rfl⟩
  | selector s =>
    intro ts hs
    obtain ⟨⟨hw, -, hn⟩, -⟩ := printable_iff.1 h
    obtain ⟨pos, hread⟩ := readsPrimary_selector stop hw hn hs
    exact ⟨_, hread.rereads rfl⟩
  | matrix p s range => exact readsBack_matrix h
  | subquery p e range step? ih =>
    exact readsBack_subquery h (ih (h.child (List.mem_singleton_self _)))
  | call p function args returns ih =>
    exact readsBack_call h fun a ha => ih a ha (h.child ha)
  | aggregate p op e parameter? g ih ihp =>
    refine readsBack_aggregate h (ih (h.child ?_)) fun a ha => ihp a ha (h.child ?_)
    · exact List.mem_append_right _ (List.mem_singleton_self _)
    · exact List.mem_append_left _ (Option.mem_toList.2 ha)
  | binary p op lhs rhs returnBool ihl ihr =>
    exact readsBack_binary h (ihl (h.child (by simp [children])))
      (ihr (h.child (by simp [children])))
  | unary p sign e ih => exact readsBack_unary h (ih (h.child (List.mem_singleton_self _)))
  | paren p e ih =>
    intro ts hs
    obtain ⟨opening, us, closing, rfl, hopening, hus, hclosing⟩ := stand_enclosed.1 hs
    obtain ⟨e', he⟩ := ih (h.child (List.mem_singleton_self _)) hus
    exact ⟨_, (readsPrimary_paren he.expression hopening.1 hclosing.1).rereads
      (by simp only [Like, unplaced, show e'.unplaced = _ from he.like])⟩

/-- The text of a tree is parsed as the tree, with other places, if as many calls may be open at
once as it needs. Within a smaller limit it nests too deeply. -/
theorem parse_print {e : Expr} (h : e.Printable) (limit : Nat) :
    (parse e.print limit).map Expr.unplaced =
      if e.calls ≤ limit then .ok e.unplaced else fail .tooDeep 0 := by
  obtain ⟨ts, hts, hstand⟩ := lexemes_print h
  obtain ⟨e', he⟩ := Expr.reread e.print.length h hstand
  obtain ⟨w, ws, hws, -⟩ := Expr.words_start h
  obtain ⟨t, us, rfl, -⟩ := stand_cons.1 (hws ▸ hstand)
  have hclosed : Closed [] := nofun
  have hread := he.expression.closed hclosed limit
  rw [List.append_nil, he.like.calls_eq] at hread
  rw [parse, hts]
  simp only [parseTokens, List.isEmpty_cons, Bool.false_eq_true, if_false]
  split at hread
  · rename_i hfits
    obtain ⟨p, hp, rfl, hrest⟩ := reading_eq_ok.1 hread
    rw [hp, if_pos hfits, ← he.like]
    simp [bind, Except.bind, hrest, pure, Except.pure, Except.map]
  · rename_i hfits
    rw [reading_eq_error.1 hread, if_neg hfits]
    rfl

theorem parse_print_sum :
    ∃ e : Expr, e.Printable ∧ e.print =
        "sum by ( \"instance\" ) ( rate ( up \x7b \"job\" = \"api\" \x7d [ 90s ] ) ) > bool - inf" ∧
      (parse e.print).map Expr.unplaced = .ok e.unplaced := by
  let up : Selector := ⟨0, "up", [⟨"job", .equal, "api"⟩]⟩
  let rate : Expr := .call 0 "rate" [.matrix 0 up "90s"] .instant
  let sum : Expr := .aggregate 0 .sum rate none ⟨["instance"], false⟩
  let e : Expr := .binary 0 .greater sum (.number 0 (.double (.infinite true))) true
  have hup : up.WellFormed := ⟨.inl (by simp [up]), by simp [up, metricNameLabel]⟩
  have hchars : up.name.toList.all continuesName = true := by decide +kernel
  have hname : IsMetricName up.name :=
    ⟨⟨'u', by decide, by decide⟩, fun c hc => .inl (List.all_eq_true.1 hchars c hc),
      by decide +kernel⟩
  have hrange : IsDuration "90s" := isDuration_seconds 90
  have hsignature : signature? "rate" = some (Signature.fixed "rate" [.range]) := by decide +kernel
  have haccepts : (Signature.fixed "rate" [.range]).Accepts [.range] := by
    refine ⟨Nat.le_refl _, fun greatest hg => Option.some.inj hg ▸ Nat.le_refl _, fun i hi => ?_⟩
    obtain rfl : i = 0 := by simpa using hi
    rfl
  have hselector : (Expr.selector up).Printable :=
    Expr.printable_iff.2 ⟨⟨hup, trivial, .inr hname⟩, List.forall_mem_nil _⟩
  have hmatrix : (Expr.matrix 0 up "90s").Printable :=
    Expr.printable_iff.2 ⟨⟨hup, trivial, hrange⟩, by simpa [Expr.children] using hselector⟩
  have hrate : rate.Printable :=
    Expr.printable_iff.2 ⟨⟨⟨_, hsignature, haccepts, rfl⟩, trivial, trivial⟩,
      by simpa [rate, Expr.children] using hmatrix⟩
  have hsum : sum.Printable :=
    Expr.printable_iff.2 ⟨⟨⟨rfl, rfl⟩, trivial, trivial⟩, by simpa [sum, Expr.children] using hrate⟩
  have hnumber : (Expr.number 0 (.double (.infinite true))).Printable :=
    Expr.printable_iff.2 ⟨⟨trivial, trivial, trivial⟩, List.forall_mem_nil _⟩
  have he : e.Printable := by
    have haccepts : BinaryOp.greater.Accepts sum.type .scalar true :=
      ⟨⟨rfl, rfl⟩, fun _ _ _ => rfl, by decide⟩
    have hgrouped : e.Grouped := by simp [e, sum, Expr.Grouped, Expr.rootOp?]
    refine Expr.printable_iff.2 ⟨⟨⟨haccepts, fun _ => rfl⟩, hgrouped, trivial⟩, ?_⟩
    simpa [e, Expr.children] using ⟨hsum, hnumber⟩
  have hfits : e.calls ≤ callLimit := by decide +kernel
  exact ⟨e, he, by decide +kernel, (parse_print he callLimit).trans (if_pos hfits)⟩

end PanelExport.Query
