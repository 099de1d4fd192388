import PanelExport.Proofs.Query.Magnitude
import PanelExport.Proofs.Query.Metrics
import PanelExport.Proofs.Query.Tree
import PanelExport.Query.Report

/-!
# Searching joined lists

What is found in two lists of expressions, one after the other, is put together from what is found
in each: the errors follow one another, and of the second list's metrics those follow that the
first list does not have. So a report can be made piece by piece.

* `addNames_eq`: the names that some more add are those of them that are new.
* `Selector.metricName_eq_iff`: which metric a selector names, rule by rule.
* `Found.ListsIn`: what a search through a list of expressions says about the list.
* `findMetrics_append`: the search through joined lists, and the reply that it makes.
-/

namespace PanelExport.Query

/-! ## Names that are added -/

/-- The names in the order in which they first stand there, without the empty one. -/
def distinct (names : List String) : List String :=
  names.foldl addName []

/-- The names that some more add are those of them that are new, in their order. -/
theorem addNames_eq (names others : List String) :
    others.foldl addName names = names ++ (distinct others).filter (· ∉ names) := by
  induction others generalizing names with
  | nil => simp [distinct]
  | cons other others ih =>
    have hcons : distinct (other :: others) = others.foldl addName (addName [] other) := rfl
    rw [List.foldl_cons, hcons]
    by_cases hempty : other = ""
    · subst hempty
      have hskip : ∀ names, addName names "" = names := fun _ => if_pos (.inl rfl)
      rw [hskip, hskip, ih names]
      rfl
    · have hfirst : addName [] other = [other] := if_neg (by simp [hempty])
      rw [hfirst, ih [other], List.filter_append]
      by_cases hmem : other ∈ names
      · have hskip : addName names other = names := if_pos (.inr hmem)
        have hdrop : [other].filter (· ∉ names) = [] := by simp [hmem]
        rw [hskip, ih names, hdrop, List.nil_append, List.filter_filter]
        congr 1
        refine List.filter_congr fun name _ => ?_
        by_cases hname : name = other <;> simp [hname, hmem]
      · have hadd : addName names other = names ++ [other] := if_neg (by simp [hempty, hmem])
        have hkeep : [other].filter (· ∉ names) = [other] := by simp [hmem]
        rw [hadd, ih (names ++ [other]), hkeep, List.append_assoc, List.filter_filter]
        congr 2
        refine List.filter_congr fun name _ => ?_
        simp [not_or]

theorem nodup_addNames {names : List String} (h : names.Nodup) (others : List String) :
    (others.foldl addName names).Nodup := by
  induction others generalizing names with
  | nil => exact h
  | cons other others ih =>
    refine ih ?_
    unfold addName
    split
    · exact h
    · rename_i hnew
      rw [not_or] at hnew
      refine List.nodup_append.2 ⟨h, by simp, fun name hname _ hother => ?_⟩
      rintro rfl
      exact hnew.2 (List.mem_singleton.1 hother ▸ hname)

/-! ## The metric of a selector -/

/-- A condition that decides about the metric's name: that it is equal to a value, or that it
matches a pattern. -/
def Matcher.DecidesName (m : Matcher) : Prop :=
  m.label = metricNameLabel ∧ (m.op = .equal ∨ m.op = .regex)

/-- A selector names a metric: by a name of its own, or else by the first condition that decides
about the metric's name, if that one asks for a value. -/
inductive Selector.Names (s : Selector) : String → Prop where
  | own : s.name ≠ "" → s.Names s.name
  | matcher {before after : List Matcher} {m : Matcher} :
      s.name = "" → s.matchers = before ++ m :: after → (∀ n ∈ before, ¬ n.DecidesName) →
      m.label = metricNameLabel → m.op = .equal → s.Names m.value

theorem Selector.nameMatcher?_eq_some {s : Selector} {m : Matcher} :
    s.nameMatcher? = some m ↔ m.DecidesName ∧ ∃ before after,
      s.matchers = before ++ m :: after ∧ ∀ n ∈ before, ¬ n.DecidesName := by
  simp [nameMatcher?, List.find?_eq_some_iff_append, Matcher.DecidesName, Decidable.imp_iff_not_or]

/-- Which metric a selector names. A selector that names none has the empty name. -/
theorem Selector.metricName_eq_iff {s : Selector} {name : String} (hne : name ≠ "") :
    s.metricName = name ↔ s.Names name := by
  unfold metricName
  constructor
  · intro h
    split at h
    · rename_i hown
      exact h ▸ .own hown
    · rename_i hown
      rw [not_not] at hown
      split at h
      · rename_i m hm
        obtain ⟨⟨hlabel, -⟩, before, after, hsplit, hbefore⟩ := nameMatcher?_eq_some.1 hm
        split at h
        · rename_i hop
          exact h ▸ .matcher hown hsplit hbefore hlabel hop
        · exact absurd h.symm hne
      · exact absurd h.symm hne
  · intro h
    cases h with
    | own hown => rw [if_pos hown]
    | @matcher before after m hown hsplit hbefore hlabel hop =>
      have hm : s.nameMatcher? = some m :=
        nameMatcher?_eq_some.2 ⟨⟨hlabel, .inl hop⟩, before, after, hsplit, hbefore⟩
      rw [if_neg (not_not.2 hown), hm]
      exact if_pos hop

theorem Expr.mem_selectors {e : Expr} {s : Selector} :
    s ∈ e.selectors ↔ Expr.selector s ∈ e.listing := by
  have hwalk : e.walk = e.listing := by
    rw [walk, walkStack_eq_listings, listings, listings, List.append_nil]
  rw [selectors, hwalk, List.mem_filterMap]
  constructor
  · rintro ⟨n, hn, h⟩
    split at h
    · exact Option.some.inj h ▸ hn
    · cases h
  · exact fun h => ⟨_, h, rfl⟩

/-! ## What is found -/

theorem errorOf_eq_empty {limit : Nat} {text : String}
    (h : OnlyMalformed (parse (stripMacros text) limit)) :
    errorOf limit text = "" ↔ ∃ e, parse (stripMacros text) limit = .ok e := by
  unfold errorOf
  cases hparse : parse (stripMacros text) limit with
  | ok e => simp
  | error fault =>
    cases fault with
    | malformed e => simp [e.message_ne_empty]
    | number fault => exact absurd hparse (h fault)

/-- What a search through some expressions says about them: an error in the place of each, empty
for the queries and for nothing else, and every metric that a selector of a query names, once. -/
structure Found.ListsIn (found : Found) (limit : Nat) (texts : List String) : Prop where
  length_errors : found.errors.length = texts.length
  error : ∀ (i : Nat) (h : i < texts.length),
    found.errors[i]? = some "" ↔ ∃ e, parse (stripMacros texts[i]) limit = .ok e
  not_empty : "" ∉ found.metrics
  nodup : found.metrics.Nodup
  metrics : ∀ name, name ∈ found.metrics ↔ name ≠ "" ∧ ∃ text ∈ texts, ∃ e,
    parse (stripMacros text) limit = .ok e ∧
      ∃ s, Expr.selector s ∈ e.listing ∧ s.metricName = name

/-- What is found in some expressions, if no literal ends the search. -/
def foundIn (limit : Nat) (texts : List String) : Found :=
  ⟨distinct (texts.flatMap (namesOf limit)), texts.map (errorOf limit)⟩

section

variable {limit : Nat} {texts : List String}
  (h : ∀ text ∈ texts, OnlyMalformed (parse (stripMacros text) limit))

include h

theorem findMetrics_eq : (findMetrics texts limit).outcome = .ok (foundIn limit texts) :=
  (findMetrics_outcome texts limit).trans (metricsOf_eq_ok.2 ⟨h, rfl⟩)

theorem foundIn_listsIn : (foundIn limit texts).ListsIn limit texts where
  length_errors := List.length_map _
  error i hi := by
    rw [foundIn, List.getElem?_map, List.getElem?_eq_getElem hi, Option.map_some,
      Option.some.injEq, errorOf_eq_empty (h _ (List.getElem_mem hi))]
  not_empty hmem := by simpa using (mem_addNames.1 hmem).resolve_left List.not_mem_nil
  nodup := nodup_addNames List.nodup_nil _
  metrics name := by
    rw [foundIn, distinct, mem_addNames]
    simp only [List.not_mem_nil, false_or, List.mem_flatMap, mem_namesOf, Expr.mem_selectors]
    exact And.comm

end

theorem foundIn_append (limit : Nat) (texts others : List String) :
    foundIn limit (texts ++ others) = ⟨(foundIn limit texts).metrics ++
      (foundIn limit others).metrics.filter (· ∉ (foundIn limit texts).metrics),
      (foundIn limit texts).errors ++ (foundIn limit others).errors⟩ := by
  simp only [foundIn, List.map_append, List.flatMap_append]
  congr 1
  rw [distinct, List.foldl_append, addNames_eq]
  rfl

/-! ## Joined lists -/

/-- The search through joined lists, if no literal ends it: the errors of one list follow those of
the other, and of the second list's metrics those follow that the first list does not have. Each
search says what its list holds, in the metrics that the rules give the selectors, and the reply
that is made of it says the same. -/
theorem findMetrics_append {xs ys : List String} {limit : Nat}
    (h : ∀ text ∈ xs ++ ys, OnlyMalformed (parse (stripMacros text) limit)) :
    ∃ inXs inYs inBoth : Found,
      (findMetrics xs limit).outcome = .ok inXs ∧ (findMetrics ys limit).outcome = .ok inYs ∧
      (findMetrics (xs ++ ys) limit).outcome = .ok inBoth ∧
      inBoth.errors = inXs.errors ++ inYs.errors ∧
      inBoth.metrics = inXs.metrics ++ inYs.metrics.filter (· ∉ inXs.metrics) ∧
      inXs.ListsIn limit xs ∧ inYs.ListsIn limit ys ∧ inBoth.ListsIn limit (xs ++ ys) ∧
      (∀ (s : Selector) (name : String), name ≠ "" → (s.metricName = name ↔ s.Names name)) ∧
      ∀ texts? : Option (List String), texts?.getD [] = xs →
        ∃ report, (Report.ofTexts texts? limit).outcome = .ok report ∧
          report.reply.received = xs.length ∧ report.reply.errors = inXs.errors ∧
          report.reply.metricsCount = inXs.metrics.length ∧
          report.reply.metrics?.getD [] = inXs.metrics ∧
          (report.reply.metrics? = none ↔ inXs.metrics.length = 0) := by
  have hxs := fun text ht => h text (List.mem_append_left ys ht)
  have hys := fun text ht => h text (List.mem_append_right xs ht)
  refine ⟨foundIn limit xs, foundIn limit ys, foundIn limit (xs ++ ys), findMetrics_eq hxs,
    findMetrics_eq hys, findMetrics_eq h, ?_, ?_, foundIn_listsIn hxs, foundIn_listsIn hys,
    foundIn_listsIn h,
    fun s name => Selector.metricName_eq_iff, ?_⟩
  · rw [foundIn_append]
  · rw [foundIn_append]
  · rintro texts? rfl
    refine ⟨⟨texts?, foundIn limit (texts?.getD [])⟩,
      Logged.outcome_bind_eq_ok.2 ⟨_, findMetrics_eq hxs, rfl⟩, rfl, rfl, rfl, ?_, ?_⟩
    · simp only [Report.reply]
      cases (foundIn limit (texts?.getD [])).metrics <;> rfl
    · simp only [Report.reply]
      cases (foundIn limit (texts?.getD [])).metrics <;> simp

/-- A list with a malformed expression, and one with a metric of the first one. -/
theorem findMetrics_append_unclosed :
    (∀ text ∈ ["up", "sum("] ++ ["down / up"], OnlyMalformed (parse (stripMacros text))) ∧
      ∃ inXs inYs inBoth : Found,
        (findMetrics ["up", "sum("]).outcome = .ok inXs ∧
        (findMetrics ["down / up"]).outcome = .ok inYs ∧
        (findMetrics ["up", "sum(", "down / up"]).outcome = .ok inBoth ∧
        inBoth.errors = inXs.errors ++ inYs.errors ∧
        inBoth.metrics = inXs.metrics ++ inYs.metrics.filter (· ∉ inXs.metrics) ∧
        inBoth.ListsIn callLimit ["up", "sum(", "down / up"] := by
  have honly : ∀ text ∈ ["up", "sum("] ++ ["down / up"],
      OnlyMalformed (parse (stripMacros text)) := by
    intro text ht
    have hlength : text.length ≤ 257 := by
      revert text
      decide
    exact parse_onlyMalformed
      (valuedText_of_length ((stripMacros_length_le text).trans hlength)) callLimit
  obtain ⟨inXs, inYs, inBoth, hxs, hys, hboth, herrors, hmetrics, -, -, hlists, -, -⟩ :=
    findMetrics_append honly
  exact ⟨honly, inXs, inYs, inBoth, hxs, hys, hboth, herrors, hmetrics, hlists⟩

end PanelExport.Query
