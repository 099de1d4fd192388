import PanelExport.Query.Expr

/-!
# Trees and their nodes

A property of every node of a tree is a property of its root and of the nodes of the trees directly
below it.

* `Expr.induction`: what holds of a node whenever it holds of the nodes directly below it holds of
  every tree.
* `walkStack_eq_listings`: the stack gives the nodes of its trees in the order of their listings.
* `mem_listing`: the nodes of a tree are its root and the nodes of its children.
* `all_iff`: a property of every node, from the root and the children.
-/

namespace PanelExport.Query

namespace Expr

/-- Induction over trees, with the arguments of a call and the parameter of an aggregation as
members. -/
theorem induction {P : Expr → Prop}
    (number : ∀ p v, P (.number p v))
    (text : ∀ p v, P (.text p v))
    (selector : ∀ s, P (.selector s))
    (matrix : ∀ p s r, P (.matrix p s r))
    (subquery : ∀ p e r step?, P e → P (.subquery p e r step?))
    (call : ∀ p f args t, (∀ a ∈ args, P a) → P (.call p f args t))
    (aggregate : ∀ p op e parameter? g, P e → (∀ a ∈ parameter?, P a) →
      P (.aggregate p op e parameter? g))
    (binary : ∀ p op lhs rhs b, P lhs → P rhs → P (.binary p op lhs rhs b))
    (unary : ∀ p sign e, P e → P (.unary p sign e))
    (paren : ∀ p e, P e → P (.paren p e)) (e : Expr) : P e := by
  induction e using Expr.rec
    (motive_2 := fun args => ∀ a ∈ args, P a) (motive_3 := fun parameter? => ∀ a ∈ parameter?, P a)
  case number => exact number _ _
  case text => exact text _ _
  case selector => exact selector _
  case matrix => exact matrix _ _ _
  case subquery ih => exact subquery _ _ _ _ ih
  case call ih => exact call _ _ _ _ ih
  case aggregate ih ihp => exact aggregate _ _ _ _ _ ih ihp
  case binary ihl ihr => exact binary _ _ _ _ _ ihl ihr
  case unary ih => exact unary _ _ _ ih
  case paren ih => exact paren _ _ ih
  case nil a ha => cases ha
  case cons ih ihs a ha =>
    rcases List.mem_cons.1 ha with rfl | ha
    · exact ih
    · exact ihs a ha
  case none a ha => cases ha
  case some ih a ha =>
    cases ha
    exact ih

/-- What holds of a node whenever it holds of its children holds of every tree. -/
theorem childInduction {P : Expr → Prop} (node : ∀ e : Expr, (∀ c ∈ e.children, P c) → P e)
    (e : Expr) : P e := by
  have leaf : ∀ e : Expr, e.children = [] → P e := fun e he => node e (by simp [he])
  induction e using Expr.induction with
  | number => exact leaf _ rfl
  | text => exact leaf _ rfl
  | selector => exact leaf _ rfl
  | matrix => exact node _ (by simpa [children] using leaf _ rfl)
  | subquery _ _ _ _ ih => exact node _ (by simpa [children] using ih)
  | call _ _ _ _ ih => exact node _ ih
  | aggregate _ _ _ parameter? _ ih ihp =>
    refine node _ fun c hc => ?_
    rcases List.mem_append.1 hc with hc | hc
    · exact ihp c (by simpa using hc)
    · exact List.mem_singleton.1 hc ▸ ih
  | binary _ _ _ _ _ ihl ihr => exact node _ (by simpa [children] using ⟨ihl, ihr⟩)
  | unary _ _ _ ih => exact node _ (by simpa [children] using ih)
  | paren _ _ ih => exact node _ (by simpa [children] using ih)

/-! ## Nodes -/

theorem mem_listings {n : Expr} {es : List Expr} : n ∈ listings es ↔ ∃ e ∈ es, n ∈ e.listing := by
  induction es with
  | nil => simp [listings]
  | cons e es ih => simp [listings, ih]

theorem listings_append (es fs : List Expr) : listings (es ++ fs) = listings es ++ listings fs := by
  induction es with
  | nil => rfl
  | cons e es ih => rw [List.cons_append, listings, ih, listings, List.append_assoc]

/-- A listing goes on from the root with the listings of its children. -/
theorem listing_eq (e : Expr) : e.listing = e :: listings e.children := by
  cases e with
  | aggregate p op e parameter? g =>
    cases parameter? <;> simp [listing, listings, children, parameterListing]
  | _ => simp [listing, listings, children]

/-- The stack always holds the trees that are still to be listed, the next one on top. -/
theorem walkStack_eq_listings (stack : List Expr) : walkStack stack = listings stack := by
  fun_induction walkStack stack with
  | case1 => rfl
  | case2 e stack ih => rw [ih, listings_append, listings, listing_eq e, List.cons_append]

/-- The nodes of a tree are its root and the nodes of its children. -/
theorem mem_listing {n e : Expr} : n ∈ e.listing ↔ n = e ∨ ∃ c ∈ e.children, n ∈ c.listing := by
  cases e with
  | call => simp [listing, children, mem_listings]
  | aggregate p op e parameter? g =>
    cases parameter? <;> simp [listing, children, parameterListing]
  | _ => simp [listing, children]

theorem self_mem_listing (e : Expr) : e ∈ e.listing :=
  mem_listing.2 (.inl rfl)

/-- The nodes below a node of a tree are nodes of the tree. -/
theorem listing_subset {n e : Expr} (h : n ∈ e.listing) : n.listing ⊆ e.listing := by
  induction e using childInduction with
  | node e ih =>
    rcases mem_listing.1 h with rfl | ⟨c, hc, hn⟩
    · exact List.Subset.refl _
    · exact fun m hm => mem_listing.2 (.inr ⟨c, hc, ih c hc hn hm⟩)

/-- Every node of a tree has a property. -/
def All (Q : Expr → Prop) (e : Expr) : Prop :=
  ∀ n ∈ e.listing, Q n

theorem all_iff {Q : Expr → Prop} {e : Expr} : e.All Q ↔ Q e ∧ ∀ c ∈ e.children, c.All Q := by
  constructor
  · intro h
    exact ⟨h e e.self_mem_listing, fun c hc n hn => h n (mem_listing.2 (.inr ⟨c, hc, hn⟩))⟩
  · rintro ⟨h, hs⟩ n hn
    rcases mem_listing.1 hn with rfl | ⟨c, hc, hn⟩
    · exact h
    · exact hs c hc n hn

end Expr

end PanelExport.Query
