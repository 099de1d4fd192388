import PanelExport.Proofs.Query.Places
import PanelExport.Proofs.Query.Soundness

/-!
# Precedence

Without its grouping a binary expression is a chain: operands with operators between them. The
precedences leave one way to group a chain, and the parser finds it. The operator at the root is
the one place where the chain can be cut: an operator on its left binds at least as tightly, one on
its right more tightly, and no other operator can have both on its sides.

* `Expr.chain_injective`: two trees that the precedences allow are equal if their chains are.
* `Expr.ordered_of_places`: leaves stand on their side of an operator if the places only grow.
* `parse_precedence`: how the operators of the tree of a text are grouped.
-/

namespace PanelExport.Query

/-- A part of a chain: an operand, or an operator with its place and its modifier. -/
inductive Link where
  | operand (e : Expr)
  | operator (pos : Nat) (op : BinaryOp) (returnBool : Bool)

namespace Expr

/-- The operands and operators of an expression, from left to right. -/
def chain : Expr → List Link
  | .binary p op lhs rhs b => lhs.chain ++ .operator p op b :: rhs.chain
  | e => [.operand e]

/-- All operators of the chain stand as the precedences allow. -/
def Arranged : Expr → Prop
  | .binary p op lhs rhs b => (binary p op lhs rhs b).Grouped ∧ lhs.Arranged ∧ rhs.Arranged
  | _ => True

theorem chain_of_rootOp? {e : Expr} (h : e.rootOp? = none) : e.chain = [.operand e] := by
  cases e <;> first | rfl | cases h

theorem chain_binary {p : Nat} {op : BinaryOp} {lhs rhs : Expr} {b : Bool} :
    (binary p op lhs rhs b).chain = lhs.chain ++ .operator p op b :: rhs.chain := rfl

/-- A chain of one operand is the chain of that operand alone. -/
theorem eq_of_chain_eq_operand {e f : Expr} (h : e.chain = [.operand f]) : e = f := by
  cases e with
  | binary p op lhs rhs b =>
    rw [chain_binary] at h
    have hm : Link.operator p op b ∈ [Link.operand f] := h ▸ by simp
    simp at hm
  | _ => exact Link.operand.inj (List.cons.inj h).1

/-! ## One grouping for a chain -/

/-- An operator of a chain binds at least as tightly as the one at the root. -/
theorem Arranged.le_precedence {e : Expr} (h : e.Arranged) {level : Nat}
    (hl : ∀ op ∈ e.rootOp?, level ≤ op.precedence) {p : Nat} {op : BinaryOp} {b : Bool}
    (hm : Link.operator p op b ∈ e.chain) : level ≤ op.precedence := by
  induction e using Expr.induction generalizing level with
  | binary p' root lhs rhs b' ihl ihr =>
    obtain ⟨⟨hleft, hright⟩, hal, har⟩ := h
    have hroot : level ≤ root.precedence := hl root rfl
    rw [chain_binary, List.mem_append, List.mem_cons] at hm
    rcases hm with hm | hm | hm
    · exact ihl hal (fun inner hi => Nat.le_trans hroot (hleft inner hi).1) hm
    · cases hm
      exact hroot
    · refine ihr har (fun inner hi => ?_) hm
      rcases hright inner hi with hlt | ⟨rfl, rfl⟩
      · exact Nat.le_trans hroot (Nat.le_of_lt hlt)
      · exact hroot
  | _ => simp [chain] at hm

variable {p p' : Nat} {op op' : BinaryOp} {lhs rhs : Expr} {b b' : Bool}

/-- An operator of the left operand may stand there. -/
theorem Arranged.allowsLeft (h : (binary p op lhs rhs b).Arranged)
    (hm : Link.operator p' op' b' ∈ lhs.chain) : op.AllowsLeft op' := by
  obtain ⟨⟨hleft, -⟩, hal, -⟩ := h
  refine ⟨hal.le_precedence (fun inner hi => (hleft inner hi).1) hm, ?_⟩
  cases hr : lhs.rootOp? with
  | none => simp [chain_of_rootOp? hr] at hm
  | some inner => exact (hleft inner hr).2

/-- An operator of the right operand may stand there. -/
theorem Arranged.allowsRight (h : (binary p op lhs rhs b).Arranged)
    (hm : Link.operator p' op' b' ∈ rhs.chain) : op.AllowsRight op' := by
  obtain ⟨⟨-, hright⟩, -, har⟩ := h
  exact BinaryOp.allowsRight_iff.2
    (har.le_precedence (fun inner hi => BinaryOp.allowsRight_iff.1 (hright inner hi)) hm)

/-- The operator at the root of one tree is none of those in an operand of another one's root: each
root would have the other operator on its side. -/
theorem Arranged.root_unique (he : (binary p op lhs rhs b).Arranged) {lhs' rhs' : Expr}
    (hf : (binary p' op' lhs' rhs' b').Arranged) {mid : List Link}
    (hl : lhs'.chain = lhs.chain ++ .operator p op b :: mid)
    (hr : rhs.chain = mid ++ .operator p' op' b' :: rhs'.chain) : False := by
  have hmr : Link.operator p' op' b' ∈ rhs.chain := by simp [hr]
  have hml : Link.operator p op b ∈ lhs'.chain := by simp [hl]
  have hright : op.rightLevel ≤ op'.precedence := BinaryOp.allowsRight_iff.1 (he.allowsRight hmr)
  have hleft : op'.precedence < op.rightLevel := BinaryOp.allowsLeft_iff.1 (hf.allowsLeft hml)
  exact Nat.not_le.2 hleft hright

/-- The precedences allow one grouping of a chain at most. -/
theorem chain_injective {e f : Expr} (he : e.Arranged) (hf : f.Arranged)
    (h : e.chain = f.chain) : e = f := by
  induction e using Expr.induction generalizing f with
  | binary p op lhs rhs b ihl ihr =>
    cases f with
    | binary p' op' lhs' rhs' b' =>
      rw [chain_binary, chain_binary] at h
      -- One of the two roots stands before the other one, or they are the same.
      rcases List.append_eq_append_iff.1 h with ⟨mid, hl, hr⟩ | ⟨mid, hl, hr⟩
      · cases mid with
        | nil =>
          obtain ⟨hop, hrhs⟩ := List.cons.inj hr
          have hlhs : lhs.chain = lhs'.chain := by simpa using hl.symm
          cases hop
          rw [ihl he.2.1 hf.2.1 hlhs, ihr he.2.2 hf.2.2 hrhs]
        | cons link mid =>
          obtain ⟨hlink, hrhs⟩ := List.cons.inj hr
          cases hlink
          exact (he.root_unique hf hl hrhs).elim
      · cases mid with
        | nil =>
          obtain ⟨hop, hrhs⟩ := List.cons.inj hr
          have hlhs : lhs.chain = lhs'.chain := by simpa using hl
          cases hop
          rw [ihl he.2.1 hf.2.1 hlhs, ihr he.2.2 hf.2.2 hrhs.symm]
        | cons link mid =>
          obtain ⟨hlink, hrhs⟩ := List.cons.inj hr
          cases hlink
          exact (hf.root_unique he hl hrhs).elim
    | _ => exact eq_of_chain_eq_operand h
  | _ => exact (eq_of_chain_eq_operand h.symm).symm

theorem arranged_of_all {e : Expr} (h : e.All Grouped) : e.Arranged := by
  induction e using Expr.induction with
  | binary p op lhs rhs b ihl ihr =>
    obtain ⟨hg, hs⟩ := all_iff.1 h
    exact ⟨hg, ihl (hs lhs (by simp [children])), ihr (hs rhs (by simp [children]))⟩
  | _ => trivial

/-! ## The sides of an operator -/

/-- The leaves of the left operand stand before the operator, those of the right one behind it. -/
def Ordered : Expr → Prop
  | .binary p _ lhs rhs _ =>
    (∀ leaf ∈ lhs.listing, leaf.IsLeaf → leaf.pos < p) ∧
      ∀ leaf ∈ rhs.listing, leaf.IsLeaf → p < leaf.pos
  | _ => True

theorem ordered_of_places {e : Expr} (h : e.places.Pairwise (· < ·)) : e.Ordered := by
  cases e with
  | binary p op lhs rhs b =>
    have inside : ∀ {side leaf : Expr}, leaf ∈ side.listing → leaf.IsLeaf → leaf.pos ∈ side.places :=
      fun hm hl => (places_of_mem_listing hm).subset hl.pos_mem
    rw [places, List.pairwise_append, List.pairwise_cons] at h
    obtain ⟨-, ⟨hright, -⟩, hleft⟩ := h
    exact ⟨fun leaf hm hl => hleft _ (inside hm hl) p (List.mem_cons_self ..),
      fun leaf hm hl => hright _ (inside hm hl)⟩
  | _ => trivial

end Expr

/-- In the tree of a text operators stand below operators and signs only as their precedences allow,
the leaves stand on their sides of an operator, and a binary expression is the only one that the
precedences allow for its chain. -/
theorem parse_precedence {text : String} {limit : Nat} {e : Expr} (h : parse text limit = .ok e) :
    ∀ n ∈ e.listing, n.Grouped ∧ n.Ordered ∧ ∀ m : Expr, m.Arranged ∧ m.chain = n.chain ↔ m = n := by
  intro n hn
  have hgrouped : e.All Expr.Grouped := fun m hm => (parse_sound h m hm).2
  have harranged : n.Arranged :=
    Expr.arranged_of_all fun m hm => hgrouped m (Expr.listing_subset hn hm)
  refine ⟨hgrouped n hn, ?_, fun m => ⟨fun hm => ?_, fun hm => ?_⟩⟩
  · exact Expr.ordered_of_places ((parse_places h).sublist (Expr.places_of_mem_listing hn))
  · exact Expr.chain_injective hm.1 harranged hm.2
  · subst hm
    exact ⟨harranged, rfl⟩

theorem parse_precedence_power :
    ∃ e, parse "-a ^ b ^ 2 - 1 + c * d" = .ok e ∧
      ∀ n ∈ e.listing, n.Grouped ∧ n.Ordered ∧
        ∀ m : Expr, m.Arranged ∧ m.chain = n.chain ↔ m = n := by
  have ⟨e, he⟩ : ∃ e, parse "-a ^ b ^ 2 - 1 + c * d" = .ok e := exists_of_isOk (by decide +kernel)
  exact ⟨e, he, parse_precedence he⟩

end PanelExport.Query
