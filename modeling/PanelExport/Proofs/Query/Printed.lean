import PanelExport.Proofs.Query.Loops
import PanelExport.Proofs.Query.Words

/-!
# Reading what was printed

The parts of a node that are no trees, from the tokens of their words: labels, conditions, the items
of a list and a grouping clause. What follows the tokens stays where it is, so each part can be read
wherever it stands.

* `reading_listed`: items with commas between them are read one by one.
* `reading_conditions_words`, `reading_grouping_words`: the conditions of a selector and a grouping
  clause.
-/

namespace PanelExport.Query

variable {α β : Type} {stop : Nat}

/-! ## The tokens of words -/

/-- A token that stands for a word. -/
def Token.Is (t : Token) (w : Word) : Prop := t.kind = w.kind ∧ t.value = w.value

theorem stand_nil {ts : List Token} : Stand ts [] ↔ ts = [] := by
  simp [Stand]

theorem stand_cons {ts : List Token} {w : Word} {ws : List Word} :
    Stand ts (w :: ws) ↔ ∃ t us, ts = t :: us ∧ t.Is w ∧ Stand us ws := by
  simp [Stand, Token.Is, List.map_eq_cons_iff, and_assoc]

theorem stand_single {ts : List Token} {w : Word} : Stand ts [w] ↔ ∃ t, ts = [t] ∧ t.Is w := by
  simp [stand_cons, stand_nil, and_comm]

/-- Tokens stand for words in two rows if some of them stand for the first row and the rest for the
second one. -/
theorem stand_append {ts : List Token} {vs ws : List Word} :
    Stand ts (vs ++ ws) ↔ ∃ us us', ts = us ++ us' ∧ Stand us vs ∧ Stand us' ws := by
  simp [Stand, List.map_eq_append_iff]

/-- Words between two marks, and the tokens for them. -/
theorem stand_enclosed {ts : List Token} {left right : Kind} {ws : List Word} :
    Stand ts (.mark left :: ws ++ [.mark right]) ↔ ∃ opening us closing,
      ts = opening :: (us ++ [closing]) ∧ opening.Is (.mark left) ∧ Stand us ws ∧
        closing.Is (.mark right) := by
  rw [List.cons_append, stand_cons]
  constructor
  · rintro ⟨opening, vs, rfl, hopening, hvs⟩
    obtain ⟨us, last, rfl, hus, hlast⟩ := stand_append.1 hvs
    obtain ⟨closing, rfl, hclosing⟩ := stand_single.1 hlast
    exact ⟨opening, us, closing, rfl, hopening, hus, hclosing⟩
  · rintro ⟨opening, us, closing, rfl, hopening, hus, hclosing⟩
    exact ⟨opening, _, rfl, hopening,
      stand_append.2 ⟨us, _, rfl, hus, stand_single.2 ⟨closing, rfl, hclosing⟩⟩⟩

/-- The token of a name is one of some words if the name is. -/
theorem Token.Is.isWord_eq {t : Token} {value : String} (h : t.Is (.name value))
    (words : List String) : t.isWord words = words.contains value.toLower := by
  rw [isWord, h.1, h.2]
  rfl

/-- Only a name is a word. -/
theorem Token.isWord_of_kind {t : Token} (h : t.kind ≠ .identifier) (words : List String) :
    t.isWord words = false := by
  simp [isWord, h]

theorem take?_cons_of_true {p : Token → Bool} {t : Token} (h : p t = true) (rest : List Token) :
    take? p (t :: rest) = some ⟨t, rest, Nat.lt_succ_self _⟩ :=
  take?_eq_some h

theorem take?_cons_of_false {p : Token → Bool} {t : Token} (h : p t = false) (rest : List Token) :
    take? p (t :: rest) = none := by
  simp [take?, h]

theorem reading_expect_cons (stop : Nat) {kind : Kind} {t : Token} (h : t.kind = kind)
    (place : Place) (rest : List Token) :
    reading (expect stop kind place (t :: rest)) = .ok (t, rest) :=
  reading_expect_eq_ok.2 ⟨h, rfl⟩

/-! ## Items with commas between them -/

/-- The tokens of items with commas between them. -/
inductive Listed (P : List Token → α → Prop) : List Token → List α → Prop where
  | nil : Listed P [] []
  | single {ts : List Token} {a : α} (item : P ts a) : Listed P ts [a]
  | more {ts us : List Token} {a b : α} {as : List α} {comma : Token} (item : P ts a)
      (separates : comma.kind = .comma) (others : Listed P us (b :: as)) :
      Listed P (ts ++ comma :: us) (a :: b :: as)

theorem Listed.imp {P Q : List Token → α → Prop} {ts : List Token} {as : List α}
    (h : Listed P ts as) (hi : ∀ ts a, P ts a → Q ts a) : Listed Q ts as := by
  induction h with
  | nil => exact .nil
  | single item => exact .single (hi _ _ item)
  | more item separates _ ih => exact .more (hi _ _ item) separates ih

/-- If the tokens of every item are read as something, then so are those of all items. -/
theorem listed_of_stand {P : List Token → α → Prop} {R : α → β → Prop} {words : β → List Word}
    {xs : List β} (h : ∀ x ∈ xs, ∀ ts, Stand ts (words x) → ∃ a, R a x ∧ P ts a) {ts : List Token}
    (hs : Stand ts (listed (xs.map words))) : ∃ as, List.Forall₂ R as xs ∧ Listed P ts as := by
  induction xs generalizing ts with
  | nil =>
    obtain rfl := stand_nil.1 hs
    exact ⟨[], .nil, .nil⟩
  | cons x xs ih =>
    obtain ⟨hx, hxs⟩ := List.forall_mem_cons.1 h
    cases xs with
    | nil =>
      obtain ⟨a, hr, ha⟩ := hx ts hs
      exact ⟨[a], .cons hr .nil, .single ha⟩
    | cons y ys =>
      obtain ⟨us, us', rfl, hus, hus'⟩ := stand_append.1 hs
      obtain ⟨comma, vs, rfl, hcomma, hvs⟩ := stand_cons.1 hus'
      obtain ⟨a, hr, ha⟩ := hx us hus
      obtain ⟨as, hrs, has⟩ := ih hxs hvs
      cases hrs with
      | cons hb hbs => exact ⟨_, .cons hr (.cons hb hbs), .more ha hcomma.1 has⟩

/-- The tokens of an item, which do not start with the closing token, are read as a value or a
fault, if a comma or the closing token follows. -/
structure ReadsItem (item : Parser α) (close : Kind) (ts : List Token) (r : Except Fault α) :
    Prop where
  starts : ∃ t us, ts = t :: us ∧ t.kind ≠ close
  reads : ∀ rest : List Token, (∀ t ∈ rest.head?, t.kind = .comma ∨ t.kind = close) →
    reading (item (ts ++ rest)) = r.map fun a => (a, rest)

/-- Items with commas between them are read one by one. -/
theorem reading_listed {item : Parser α} {close : Kind} (hc : close ≠ .comma) {place : Place}
    {outcome : β → Except Fault α} {ts : List Token} {bs : List β}
    (h : Listed (fun ts b => ReadsItem item close ts (outcome b)) ts bs) {t : Token}
    (ht : t.kind = close) (rest : List Token) :
    reading (separated stop close place item (ts ++ t :: rest)) =
      (bs.mapM outcome).map fun as => (as, rest) := by
  have hclose : take? (·.kind == close) (t :: rest) = some ⟨t, rest, Nat.lt_succ_self _⟩ :=
    take?_cons_of_true (by simpa using ht) rest
  induction h with
  | nil =>
    rw [List.nil_append, reading_separated, hclose]
    rfl
  | @single ts b hb =>
    obtain ⟨⟨u, us, rfl, hu⟩, hreads⟩ := hb
    have hnone := take?_cons_of_false (p := (·.kind == close)) (by simpa using hu)
      (us ++ t :: rest)
    have hcomma : take? (·.kind == .comma) (t :: rest) = none :=
      take?_cons_of_false (by simpa [ht] using hc) rest
    rw [reading_separated, List.cons_append, hnone, ← List.cons_append,
      hreads _ (by simp [ht]), List.mapM_cons, List.mapM_nil]
    cases outcome b with
    | error fault => rfl
    | ok a => simp [bind, Except.bind, Except.map, pure, Except.pure, hcomma, hclose]
  | @more ts us b c bs comma hb separates others ih =>
    obtain ⟨⟨u, us', rfl, hu⟩, hreads⟩ := hb
    have hnone := take?_cons_of_false (p := (·.kind == close)) (by simpa using hu)
      (us' ++ comma :: (us ++ t :: rest))
    have hcomma := take?_cons_of_true (p := (·.kind == .comma)) (by simpa using separates)
      (us ++ t :: rest)
    rw [List.append_assoc, List.cons_append (a := comma), reading_separated, List.cons_append, hnone,
      ← List.cons_append, hreads _ (by simp [separates]), List.mapM_cons]
    cases outcome b with
    | error fault => rfl
    | ok a =>
      simp only [bind, Except.bind, Except.map, hcomma, ih]
      cases (c :: bs).mapM outcome <;> rfl

theorem mapM_ok (xs : List α) : xs.mapM (.ok : α → Except Fault α) = .ok xs := by
  have hpure : xs.mapM (.ok : α → Except Fault α) = .ok (xs.map id) := List.mapM_pure
  rw [hpure, List.map_id]

/-! ## Labels and conditions -/

/-- Printed labels are read as the labels. -/
theorem reading_labels_words {place : Place} {labels : List String} {ts : List Token}
    (h : Stand ts (listed (labels.map fun label => [Word.quoted label]))) {t : Token}
    (ht : t.kind = .rightParen) (rest : List Token) :
    reading (separated stop .rightParen place (label stop place) (ts ++ t :: rest)) =
      .ok (labels, rest) := by
  have hlabel : ∀ value ∈ labels, ∀ ts, Stand ts [Word.quoted value] →
      ∃ a, a = value ∧ ReadsItem (label stop place) .rightParen ts (.ok a) := by
    intro value _ ts hts
    obtain ⟨u, rfl, hu⟩ := stand_single.1 hts
    refine ⟨value, rfl, ⟨u, [], rfl, by simp [hu.1, Word.quoted]⟩, fun rest _ => ?_⟩
    exact reading_label_eq_ok.2 ⟨u, .inr hu.1, hu.2, rfl⟩
  obtain ⟨as, has, hlisted⟩ := listed_of_stand hlabel h
  rw [List.forall₂_eq_eq_eq] at has
  rw [reading_listed (by decide) hlisted ht, mapM_ok, has]
  rfl

/-- A comparison of labels has its own symbol. -/
theorem ofSymbol?_symbol (op : MatchOp) : MatchOp.ofSymbol? op.symbol = some op := by
  cases op <;> decide

/-- A condition is read from its three words. -/
theorem readsItem_matcher {name : String} {m : Matcher} {ts : List Token} (h : Stand ts m.words) :
    ReadsItem (matcher stop name) .rightBrace ts (.ok m) := by
  obtain ⟨label, us, rfl, hlabel, hus⟩ := stand_cons.1 h
  obtain ⟨op, vs, rfl, hop, hvs⟩ := stand_cons.1 hus
  obtain ⟨value, rfl, hvalue⟩ := stand_single.1 hvs
  refine ⟨⟨label, _, rfl, by simp [hlabel.1, Word.quoted]⟩, fun rest _ => ?_⟩
  have hlabelKind : label.kind = .text := hlabel.1
  have hopKind : op.kind = .matcher := hop.1
  have hvalueKind : value.kind = .text := hvalue.1
  have hquoted : quotedName? stop name (label :: op :: value :: rest) = none := by
    simp [quotedName?, take?, hlabelKind, current, hopKind]
  have hmatchOp : matchOp? op = some m.op := by
    rw [matchOp?, if_pos hopKind, hop.2]
    exact ofSymbol?_symbol m.op
  have htake := take?_cons_of_true (p := fun t => t.kind == .identifier || t.kind == .text)
    (t := label) (by simp [hlabelKind]) (op :: value :: rest)
  have htakeOp := take?_cons_of_true (p := fun t => (matchOp? t).isSome) (t := op)
    (by simp [hmatchOp]) (value :: rest)
  obtain ⟨p, hp, hv, hr⟩ := reading_eq_ok.1
    (reading_expect_cons stop hvalueKind .matching rest)
  simp only [List.cons_append, List.nil_append, matcher, hquoted, htake, htakeOp, hp, bind,
    Except.bind]
  simp [reading, Except.map, pure, Except.pure, hr, hv, hmatchOp, hlabel.2, hvalue.2, Word.quoted]

/-- Printed conditions are read as the conditions. -/
theorem reading_conditions_words {s : Selector} (hw : s.WellFormed) {ts : List Token}
    (h : Stand ts (listed (s.matchers.map Matcher.words))) {t : Token} (ht : t.kind = .rightBrace)
    (pos : Nat) (rest : List Token) :
    reading (conditions stop pos s.name (ts ++ t :: rest)) =
      .ok (⟨pos, s.name, s.matchers⟩, rest) := by
  have hmatcher : ∀ m ∈ s.matchers, ∀ ts, Stand ts m.words →
      ∃ a, a = m ∧ ReadsItem (matcher stop s.name) .rightBrace ts (.ok a) :=
    fun m _ ts hts => ⟨m, rfl, readsItem_matcher hts⟩
  obtain ⟨as, has, hlisted⟩ := listed_of_stand hmatcher h
  rw [List.forall₂_eq_eq_eq] at has
  have hcheck : checkSelector ⟨pos, s.name, s.matchers⟩ = .ok ⟨pos, s.name, s.matchers⟩ :=
    checkSelector_eq_ok.2 ⟨rfl, hw⟩
  rw [reading_conditions, reading_listed (by decide) hlisted ht, mapM_ok, has]
  simp [bind, Except.bind, Except.map, hcheck, pure, Except.pure]

/-! ## Grouping clauses -/

/-- The word in front of a list of labels says what the list is for. -/
theorem Token.Is.isWord_grouping {t : Token} {without : Bool}
    (h : t.Is (.name (if without then "without" else "by"))) :
    t.isWord ["by", "without"] = true ∧ (t.value.toLower == "without") = without := by
  rw [h.isWord_eq, h.2]
  cases without <;> decide +kernel

/-- A printed grouping is read as the grouping. -/
theorem reading_grouping_words {g : Grouping} {ts : List Token} (h : Stand ts g.words)
    (rest : List Token) : reading (grouping stop (ts ++ rest)) = .ok (some g, rest) := by
  obtain ⟨word, us, rfl, hword, hus⟩ := stand_cons.1 h
  obtain ⟨opening, labels, closing, rfl, hopening, hlabels, hclosing⟩ := stand_enclosed.1 hus
  have hopening : opening.kind = .leftParen := hopening.1
  have hclosing : closing.kind = .rightParen := hclosing.1
  obtain ⟨hisWord, hwithout⟩ := hword.isWord_grouping
  have htokens : word :: opening :: (labels ++ [closing]) ++ rest =
      word :: opening :: (labels ++ closing :: rest) := by
    simp
  rw [htokens, reading_grouping, take?_cons_of_true hisWord]
  simp only [reading_labelList, reading_expect_cons stop hopening, bind, Except.bind,
    reading_labels_words hlabels hclosing, hwithout]
  rfl

end PanelExport.Query
