import PanelExport.Proofs.Query.Faults
import PanelExport.Query.Metrics

/-!
# The metrics that are found

The search goes through the expressions from left to right. What one of them adds depends on it
alone, up to the names that are known already: a query adds the names that it selects, and an
expression that is malformed adds its error. Only a literal without a value ends the search.

* `mem_addNames`: the names with some more of them.
* `metricsOf_eq_ok`: what is found, if no literal ends the search.
* `Found.Accounts`, `exists_accounts`: what is found accounts for every expression.
-/

namespace PanelExport.Query

/-! ## Names -/

theorem mem_addName {names : List String} {name other : String} :
    other ∈ addName names name ↔ other ∈ names ∨ other = name ∧ name ≠ "" := by
  unfold addName
  split
  · rename_i h
    refine ⟨.inl, ?_⟩
    rintro (hmem | ⟨rfl, hne⟩)
    · exact hmem
    · exact h.resolve_left hne
  · rename_i h
    rw [not_or] at h
    simp [h.1]

/-- The names with some more of them, of which the empty one is left out. -/
theorem mem_addNames {names others : List String} {name : String} :
    name ∈ others.foldl addName names ↔ name ∈ names ∨ name ∈ others ∧ name ≠ "" := by
  induction others generalizing names with
  | nil => simp
  | cons other others ih =>
    rw [List.foldl_cons, ih, mem_addName, List.mem_cons]
    constructor
    · rintro ((h | ⟨rfl, h⟩) | ⟨h, hne⟩)
      · exact .inl h
      · exact .inr ⟨.inl rfl, h⟩
      · exact .inr ⟨.inr h, hne⟩
    · rintro (h | ⟨rfl | h, hne⟩)
      · exact .inl (.inl h)
      · exact .inl (.inr ⟨rfl, hne⟩)
      · exact .inr ⟨h, hne⟩

/-! ## One expression -/

/-- The names that an expression selects, in order. What is no query selects none. -/
def namesOf (limit : Nat) (text : String) : List String :=
  match parse (stripMacros text) limit with
  | .ok e => e.selectors.map Selector.metricName
  | .error _ => []

/-- What is wrong with an expression; nothing with a query. -/
def errorOf (limit : Nat) (text : String) : String :=
  match parse (stripMacros text) limit with
  | .error (.malformed e) => e.message (stripMacros text)
  | _ => ""

/-- The words for an error are never empty, as they start with its place. -/
theorem ParseError.message_ne_empty (e : ParseError) (text : String) : e.message text ≠ "" := by
  simp [message]

theorem addExpression_eq_ok {found next : Found} {text : String} {limit : Nat} :
    addExpression found text limit = .ok next ↔ OnlyMalformed (parse (stripMacros text) limit) ∧
      next = ⟨(namesOf limit text).foldl addName found.metrics,
        found.errors ++ [errorOf limit text]⟩ := by
  cases h : parse (stripMacros text) limit with
  | ok e => simp [addExpression, namesOf, errorOf, h, OnlyMalformed, Found.addAll, eq_comm]
  | error fault =>
    cases fault with
    | malformed e =>
      simp [addExpression, namesOf, errorOf, h, OnlyMalformed, Found.addError, eq_comm]
    | number fault => simp [addExpression, h, OnlyMalformed]

/-! ## Some expressions -/

theorem foldlM_addExpression_eq_ok {texts : List String} {limit : Nat} {found last : Found} :
    texts.foldlM (fun found text => addExpression found text limit) found = .ok last ↔
      (∀ text ∈ texts, OnlyMalformed (parse (stripMacros text) limit)) ∧
        last = ⟨(texts.flatMap (namesOf limit)).foldl addName found.metrics,
          found.errors ++ texts.map (errorOf limit)⟩ := by
  induction texts generalizing found with
  | nil => simp [pure, Except.pure, eq_comm]
  | cons text texts ih =>
    rw [List.foldlM_cons, bind_eq_ok]
    simp only [addExpression_eq_ok, ih, List.forall_mem_cons, List.flatMap_cons, List.foldl_append,
      List.map_cons]
    constructor
    · rintro ⟨_, ⟨h, rfl⟩, hs, rfl⟩
      exact ⟨⟨h, hs⟩, by simp⟩
    · rintro ⟨⟨h, hs⟩, rfl⟩
      exact ⟨_, ⟨h, rfl⟩, hs, by simp⟩

/-- What is found in some expressions: the names that they select, each once and in order, and an
error for each of them. -/
theorem metricsOf_eq_ok {texts : List String} {limit : Nat} {found : Found} :
    metricsOf texts limit = .ok found ↔
      (∀ text ∈ texts, OnlyMalformed (parse (stripMacros text) limit)) ∧
        found = ⟨(texts.flatMap (namesOf limit)).foldl addName [],
          texts.map (errorOf limit)⟩ :=
  foldlM_addExpression_eq_ok

theorem findMetrics_outcome (texts : List String) (limit : Nat) :
    (findMetrics texts limit).outcome = metricsOf texts limit := by
  unfold findMetrics
  cases metricsOf texts limit <;> rfl

/-- What is found accounts for every expression in its own place: nothing is wrong with a query, and
an error stands for what is malformed. The metrics are the names that the queries select. -/
structure Found.Accounts (found : Found) (limit : Nat) (texts : List String) : Prop where
  length_errors : found.errors.length = texts.length
  query : ∀ (i : Nat) (h : i < texts.length) (e : Expr),
    parse (stripMacros texts[i]) limit = .ok e → found.errors[i]? = some ""
  malformed : ∀ (i : Nat) (h : i < texts.length) (fault : Fault),
    parse (stripMacros texts[i]) limit = .error fault → ∃ e : ParseError, fault = .malformed e ∧
      found.errors[i]? = some (e.message (stripMacros texts[i])) ∧
      e.message (stripMacros texts[i]) ≠ ""
  metrics : ∀ name, name ∈ found.metrics ↔ name ≠ "" ∧ ∃ text ∈ texts, ∃ e,
    parse (stripMacros text) limit = .ok e ∧ ∃ s ∈ e.selectors, s.metricName = name

theorem mem_namesOf {limit : Nat} {text name : String} :
    name ∈ namesOf limit text ↔
      ∃ e, parse (stripMacros text) limit = .ok e ∧ ∃ s ∈ e.selectors, s.metricName = name := by
  unfold namesOf
  cases parse (stripMacros text) limit <;> simp

theorem accounts_of_metricsOf {texts : List String} {limit : Nat} {found : Found}
    (h : metricsOf texts limit = .ok found) : found.Accounts limit texts := by
  obtain ⟨hmalformed, rfl⟩ := metricsOf_eq_ok.1 h
  refine ⟨List.length_map _, fun i hi e he => ?_, fun i hi fault hfault => ?_, fun name => ?_⟩
  · simp [hi, errorOf, he]
  · cases fault with
    | malformed e =>
      exact ⟨e, rfl, by simp [hi, errorOf, hfault], e.message_ne_empty _⟩
    | number fault => exact absurd hfault (hmalformed _ (List.getElem_mem hi) fault)
  · rw [mem_addNames]
    simp only [List.not_mem_nil, false_or, List.mem_flatMap, mem_namesOf]
    exact And.comm

/-- What is found in expressions whose literals have the values that they need. -/
theorem exists_accounts {texts : List String}
    (h : ∀ text ∈ texts, ValuedText (stripMacros text)) (limit : Nat) :
    ∃ found, (findMetrics texts limit).outcome = .ok found ∧ found.Accounts limit texts := by
  obtain ⟨found, hfound⟩ : ∃ found, metricsOf texts limit = .ok found :=
    ⟨_, metricsOf_eq_ok.2 ⟨fun text ht => parse_onlyMalformed (h text ht) limit, rfl⟩⟩
  exact ⟨found, (findMetrics_outcome texts limit).trans hfound, accounts_of_metricsOf hfound⟩

end PanelExport.Query
