import PanelExport.Proofs.Query.Tree

/-!
# The order of the nodes of a tree

The nodes of a tree are given by a loop over a stack: the last tree on it is taken off, its root is
given, and the trees below the root are put there with the leftmost one last. The loop gives every
node once, each before those below it and from left to right.

* `Traversal.Turn`: one turn of the loop.
* `Traversal.Turn.coming_eq`, `Turns.coming_eq`: the nodes given and the nodes still to come are the
  same all the time.
* `Turns.given_eq`: after some turns the loop has given as many nodes, from the front of the
  listing.
* `exists_isPlaced`: the listing has the node of every path below the root once, in the order of the
  paths.
* `walk_preorder`: the loop ends with the recursive listing of the tree.
-/

namespace PanelExport.Query.Expr

theorem listings_eq_flatMap (es : List Expr) : listings es = es.flatMap listing := by
  induction es with
  | nil => rfl
  | cons e es ih => rw [listings, List.flatMap_cons, ih]

theorem listings_eq_nil_iff {es : List Expr} : listings es = [] ↔ es = [] := by
  cases es with
  | nil => simp [listings]
  | cons e es => simp [listings, listing_eq e]

/-! ## The loop -/

/-- The trees that a loop has yet to go through, the next one last, and the nodes it has given. -/
structure Traversal where
  stack : List Expr
  given : List Expr

namespace Traversal

/-- A traversal of a tree before its first turn. -/
def start (e : Expr) : Traversal := ⟨[e], []⟩

/-- The last tree of the stack is taken, its root is given, and the trees below the root are put on
the stack in reverse. -/
inductive Turn : Traversal → Traversal → Prop where
  | node (stack : List Expr) (e : Expr) (given : List Expr) :
    Turn ⟨stack ++ [e], given⟩ ⟨stack ++ e.children.reverse, given ++ [e]⟩

/-- Some turns, one after the other. -/
inductive Turns : Nat → Traversal → Traversal → Prop where
  | none (t : Traversal) : Turns 0 t t
  | more {n : Nat} {t t' t'' : Traversal} : Turns n t t' → Turn t' t'' → Turns (n + 1) t t''

/-- The nodes that were given and those that the trees on the stack have, in the order in which the
loop comes to them. -/
def coming (t : Traversal) : List Expr :=
  t.given ++ listings t.stack.reverse

variable {t t' : Traversal} {n : Nat}

/-- A loop can go on as long as there is a tree on its stack. -/
theorem exists_turn (h : t.stack ≠ []) : ∃ t', Turn t t' := by
  obtain ⟨stack, given⟩ := t
  have hlast := Turn.node (stack.dropLast) (stack.getLast h) given
  rw [List.dropLast_concat_getLast] at hlast
  exact ⟨_, hlast⟩

/-- The root of the tree on top is the next node to come, and the listings of its children, which
are on top afterwards, come next. -/
theorem Turn.coming_eq (h : Turn t t') : t'.coming = t.coming := by
  cases h with
  | node stack e given =>
    simp only [coming, List.reverse_append, List.reverse_reverse, List.reverse_singleton,
      List.singleton_append, listings_append]
    rw [listings, listing_eq e, List.append_assoc, List.singleton_append, List.cons_append]

theorem Turn.length_given (h : Turn t t') : t'.given.length = t.given.length + 1 := by
  cases h with
  | node stack e given => simp

theorem Turns.coming_eq (h : Turns n t t') : t'.coming = t.coming := by
  induction h with
  | none => rfl
  | more _ hturn ih => rw [hturn.coming_eq, ih]

theorem Turns.length_given (h : Turns n t t') : t'.given.length = t.given.length + n := by
  induction h with
  | none => rfl
  | more _ hturn ih => rw [hturn.length_given, ih, Nat.add_assoc]

theorem coming_start (e : Expr) : (start e).coming = e.listing := by
  simp [coming, start, listings]

/-- So many turns give so many nodes, from the front of the listing, and the stack is empty just
when there is none left. -/
theorem Turns.given_eq {e : Expr} (h : Turns n (start e) t) :
    n ≤ e.weight ∧ t.given = e.listing.take n ∧ (t.stack = [] ↔ n = e.weight) := by
  have hcoming : t.given ++ listings t.stack.reverse = e.listing := by
    rw [← coming_start, ← h.coming_eq, coming]
  have hlength : t.given.length = n := by simpa [start] using h.length_given
  have hweight : n + (listings t.stack.reverse).length = e.weight := by
    rw [weight, ← hcoming, List.length_append, hlength]
  refine ⟨Nat.le_of_add_right_le (Nat.le_of_eq hweight), ?_, ?_⟩
  · rw [← hcoming, List.take_left' hlength]
  · rw [← List.reverse_eq_nil_iff, ← listings_eq_nil_iff, ← List.length_eq_zero_iff]
    omega

/-- The loop can be followed up to the last node. -/
theorem exists_turns {e : Expr} (hn : n ≤ e.weight) : ∃ t, Turns n (start e) t := by
  induction n with
  | zero => exact ⟨_, .none _⟩
  | succ n ih =>
    obtain ⟨t, ht⟩ := ih (Nat.le_of_lt hn)
    have hstack : t.stack ≠ [] := fun he => Nat.ne_of_lt hn (ht.given_eq.2.2.1 he)
    obtain ⟨t', hturn⟩ := exists_turn hstack
    exact ⟨t', ht.more hturn⟩

end Traversal

/-! ## Every node once -/

/-- The node that a path leads to, which says at each node which of its children is next. -/
def nodeAt? (e : Expr) : List Nat → Option Expr
  | [] => some e
  | i :: path =>
    match e.children[i]? with
    | some c => c.nodeAt? path
    | none => none

/-- Every path below some trees, with its node, in the order of the paths; the trees are numbered
from a first one on. -/
structure ArePlaced (first : Nat) (es : List Expr) (row : List (List Nat × Expr)) : Prop where
  nodes : row.map Prod.snd = listings es
  order : (row.map Prod.fst).Pairwise (· < ·)
  paths : ∀ p n, (p, n) ∈ row ↔
    ∃ i path c, p = (first + i) :: path ∧ es[i]? = some c ∧ c.nodeAt? path = some n

/-- Every path below a tree, with its node, in the order of the paths. -/
structure IsPlaced (e : Expr) (row : List (List Nat × Expr)) : Prop where
  nodes : row.map Prod.snd = e.listing
  order : (row.map Prod.fst).Pairwise (· < ·)
  paths : ∀ p n, (p, n) ∈ row ↔ e.nodeAt? p = some n

theorem arePlaced_nil (first : Nat) : ArePlaced first [] [] where
  nodes := rfl
  order := .nil
  paths := by simp

/-- The paths below the first tree stand before those below the others. -/
theorem ArePlaced.cons {first : Nat} {e : Expr} {es : List Expr}
    {row rows : List (List Nat × Expr)} (he : e.IsPlaced row) (hes : ArePlaced (first + 1) es rows) :
    ArePlaced first (e :: es) (row.map (fun p => (first :: p.1, p.2)) ++ rows) where
  nodes := by
    rw [List.map_append, List.map_map, hes.nodes, listings, ← he.nodes]
    rfl
  order := by
    rw [List.map_append, List.map_map, List.pairwise_append]
    refine ⟨?_, hes.order, ?_⟩
    · refine List.pairwise_map.2 ((List.pairwise_map.1 he.order).imp fun h => ?_)
      exact List.cons_lt_cons_iff.2 (.inr ⟨rfl, h⟩)
    · intro p hp q hq
      obtain ⟨_, -, rfl⟩ := List.mem_map.1 hp
      obtain ⟨⟨q, n⟩, hqn, rfl⟩ := List.mem_map.1 hq
      obtain ⟨i, path, c, rfl, -⟩ := (hes.paths q n).1 hqn
      exact List.cons_lt_cons_iff.2 (.inl (by omega))
  paths := by
    intro p n
    rw [List.mem_append, hes.paths]
    constructor
    · rintro (hp | ⟨i, path, c, rfl, hc, hn⟩)
      · obtain ⟨⟨path, m⟩, hpath, heq⟩ := List.mem_map.1 hp
        cases heq
        exact ⟨0, path, e, rfl, rfl, (he.paths path m).1 hpath⟩
      · exact ⟨i + 1, path, c, by rw [Nat.add_assoc, Nat.add_comm 1], hc, hn⟩
    · rintro ⟨i, path, c, rfl, hc, hn⟩
      cases i with
      | zero =>
        cases hc
        exact .inl (List.mem_map.2 ⟨(path, n), (he.paths path n).2 hn, rfl⟩)
      | succ i => exact .inr ⟨i, path, c, by rw [Nat.add_assoc, Nat.add_comm 1], hc, hn⟩

theorem exists_arePlaced {es : List Expr} (h : ∀ e ∈ es, ∃ row, e.IsPlaced row) (first : Nat) :
    ∃ row, ArePlaced first es row := by
  induction es generalizing first with
  | nil => exact ⟨[], arePlaced_nil first⟩
  | cons e es ih =>
    obtain ⟨row, hrow⟩ := h e List.mem_cons_self
    obtain ⟨rows, hrows⟩ := ih (fun e he => h e (List.mem_cons_of_mem _ he)) (first + 1)
    exact ⟨_, .cons hrow hrows⟩

/-- The empty path leads to the root, and stands before all others. -/
theorem ArePlaced.root {e : Expr} {row : List (List Nat × Expr)}
    (h : ArePlaced 0 e.children row) : e.IsPlaced (([], e) :: row) where
  nodes := by rw [List.map_cons, h.nodes, listing_eq e]
  order := by
    rw [List.map_cons, List.pairwise_cons]
    refine ⟨fun q hq => ?_, h.order⟩
    obtain ⟨⟨q, n⟩, hqn, rfl⟩ := List.mem_map.1 hq
    obtain ⟨i, path, c, rfl, -⟩ := (h.paths q n).1 hqn
    exact List.nil_lt_cons _ _
  paths := by
    intro p n
    rw [List.mem_cons, h.paths]
    cases p with
    | nil => simp [nodeAt?, eq_comm]
    | cons i path =>
      have hstep : e.nodeAt? (i :: path) = some n ↔
          ∃ c, e.children[i]? = some c ∧ c.nodeAt? path = some n := by
        rw [nodeAt?]
        cases e.children[i]? <;> simp
      simp only [hstep, Nat.zero_add, List.cons.injEq, Prod.mk.injEq, List.cons_ne_nil, false_and,
        false_or]
      constructor
      · rintro ⟨_, _, c, ⟨rfl, rfl⟩, hc⟩
        exact ⟨c, hc⟩
      · rintro ⟨c, hc⟩
        exact ⟨i, path, c, ⟨rfl, rfl⟩, hc⟩

/-- The listing of a tree has the node of each path once, in the order of the paths. -/
theorem exists_isPlaced (e : Expr) : ∃ row, e.IsPlaced row := by
  induction e using childInduction with
  | node e ih =>
    obtain ⟨row, hrow⟩ := exists_arePlaced ih 0
    exact ⟨_, hrow.root⟩

/-! ## The traversal -/

open Traversal in
/-- The loop over the stack gives the recursive listing of a tree, the root and then the listings of
its children from left to right, and ends there after a turn for every node. The listing has each
node once: it is the row of all paths below the root, which grow from one to the next. -/
theorem walk_preorder (e : Expr) :
    (e.walk = e.listing ∧ e.listing = e :: e.children.flatMap listing) ∧
      (∃ t, Turns e.weight (start e) t) ∧
      (∀ n t, Turns n (start e) t →
        n ≤ e.weight ∧ t.given = e.walk.take n ∧ (t.stack = [] ↔ n = e.weight)) ∧
      ∃ row : List (List Nat × Expr), row.map Prod.snd = e.walk ∧
        (row.map Prod.fst).Pairwise (· < ·) ∧ ∀ p n, (p, n) ∈ row ↔ e.nodeAt? p = some n := by
  have hwalk : e.walk = e.listing := by
    rw [walk, walkStack_eq_listings, listings, listings, List.append_nil]
  obtain ⟨row, hrow⟩ := exists_isPlaced e
  rw [hwalk]
  refine ⟨⟨rfl, ?_⟩, exists_turns (Nat.le_refl _), fun n t h => h.given_eq, ?_⟩
  · rw [listing_eq e, listings_eq_flatMap]
  · exact ⟨row, hrow.nodes, hrow.order, hrow.paths⟩

end PanelExport.Query.Expr
