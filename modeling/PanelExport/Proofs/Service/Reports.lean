import PanelExport.Proofs.Query.Magnitude
import PanelExport.Proofs.Query.Metrics
import PanelExport.Proofs.Service.Bodies

/-!
# Reports on any expressions

A list of expressions that is posted to the service is reported on, whatever is wrong with the
expressions: each has an error of its own, and the others are still searched. The one exception is a
literal without the value that it needs, for which the service has no answer at all. All of this is
so for every limit on nesting.

* `mem_routes`: the routes of the service.
* `respond_posted`: the answer to a list that is posted.
* `exists_accounts_of_length`: short expressions, whatever they are.
* `report_accounts`: the report on expressions whose literals have the values that they need.
* `report_lost`: a literal that costs all expressions their metrics.
-/

namespace PanelExport.Service

open Document Query

/-! ## Routes -/

/-- A path has this route, which is one of the offers under it. -/
def Route.OffersAt (r : Route) (path : String) (offers : List (List String × Resource)) : Prop :=
  PathPattern.ofText path = .ok r.pattern ∧ (r.methods, r.resource) ∈ offers

theorem mem_routesAt {path : String} {offers : List (List String × Resource)} {rs : List Route}
    (h : routesAt path offers = .ok rs) {r : Route} : r ∈ rs ↔ r.OffersAt path offers := by
  obtain ⟨pattern, hpattern, h⟩ := bind_eq_ok.1 h
  cases h
  have hpattern := mapError_eq_ok.1 hpattern
  rw [List.mem_map, Route.OffersAt, hpattern, Except.ok.injEq]
  constructor
  · rintro ⟨⟨methods, resource⟩, hmem, rfl⟩
    exact ⟨rfl, hmem⟩
  · rintro ⟨rfl, hmem⟩
    exact ⟨_, hmem, rfl⟩

theorem mem_flatten_routesAt {paths : List String} {offers : List (List String × Resource)}
    {rss : List (List Route)} (h : paths.mapM (routesAt · offers) = .ok rss) {r : Route} :
    r ∈ rss.flatten ↔ ∃ path ∈ paths, r.OffersAt path offers := by
  simp only [List.mem_flatten, mem_of_mapM h]
  constructor
  · rintro ⟨rs, ⟨path, hpath, hrs⟩, hr⟩
    exact ⟨path, hpath, (mem_routesAt hrs).1 hr⟩
  · rintro ⟨path, hpath, hr⟩
    obtain ⟨rs, hrs⟩ : ∃ rs, routesAt path offers = .ok rs :=
      ⟨_, bind_eq_ok.2 ⟨r.pattern, mapError_eq_ok.2 hr.1, rfl⟩⟩
    exact ⟨rs, ⟨path, hpath, hrs⟩, (mem_routesAt hrs).2 hr⟩

/-- What is offered under the paths of the reports. -/
def reportOffers : List (List String × Resource) :=
  [(["POST"], .report), (refusedMethods, .refusal)]

theorem mem_routes {s : Settings} {rs : List Route} (h : routes s = .ok rs) {r : Route} :
    r ∈ rs ↔ (∃ path ∈ pagePaths s, r.OffersAt path [(["GET", "HEAD"], .page)]) ∨
      (∃ path ∈ reportPaths s, r.OffersAt path reportOffers) ∨
      r.OffersAt "/health" [(["GET"], .health)] := by
  unfold routes at h
  obtain ⟨pages, hpages, h⟩ := bind_eq_ok.1 h
  obtain ⟨reports, hreports, h⟩ := bind_eq_ok.1 h
  split at h
  · cases h
  · obtain ⟨health, hhealth, h⟩ := bind_eq_ok.1 h
    cases h
    simp only [List.mem_append, mem_flatten_routesAt hpages, mem_flatten_routesAt hreports,
      mem_routesAt hhealth, or_assoc]
    rfl

/-- What is posted is posted for a report. -/
theorem resource_of_posted {s : Settings} {rs : List Route} (h : routes s = .ok rs) {r : Route}
    (hr : r ∈ rs) (hpost : "POST" ∈ r.methods) : r.resource = .report := by
  have hoffers : ∀ offers : List (List String × Resource),
      (∀ offer ∈ offers, "POST" ∈ offer.1 → offer.2 = .report) →
        ∀ path, r.OffersAt path offers → r.resource = .report :=
    fun offers hall path hat => hall _ hat.2 hpost
  rcases (mem_routes h).1 hr with ⟨path, -, hat⟩ | ⟨path, -, hat⟩ | hat
  · exact hoffers _ (by decide) path hat
  · exact hoffers _ (by decide) path hat
  · exact hoffers _ (by decide) _ hat

/-- A path of the service under which reports are made. -/
def IsReportPath (s : Settings) (path : String) : Prop :=
  ∃ text ∈ reportPaths s, ∃ pattern, PathPattern.ofText text = .ok pattern ∧
    pattern.covers path.toList = true

theorem answer_posted {s : Settings} {rs : List Route} (h : routes s = .ok rs) {r : Request}
    (hpost : r.method = "POST") (hpath : IsReportPath s r.path) (limit : Nat) :
    answer rs r limit = reportOn r.body limit := by
  obtain ⟨text, htext, pattern, hpattern, hcovers⟩ := hpath
  have hroute : ⟨pattern, ["POST"], .report⟩ ∈ rs.filter (Route.isAt r.path) :=
    List.mem_filter.2
      ⟨(mem_routes h).2 (.inr (.inl ⟨text, htext, hpattern, List.mem_cons_self ..⟩)), hcovers⟩
  unfold answer
  split
  · rename_i hnone
    rw [hnone] at hroute
    cases hroute
  · split
    · rename_i route hfound
      have hmem := (List.mem_filter.1 (List.mem_of_find?_eq_some hfound)).1
      have hmethod : "POST" ∈ route.methods := by
        simpa [hpost] using List.find?_some hfound
      rw [resource_of_posted h hmem hmethod]
      rfl
    · rename_i hnone
      have := List.find?_eq_none.1 hnone _ hroute
      simp [hpost] at this

/-! ## Reports -/

/-- The answer to a list that is posted: a report on what is found in it. -/
theorem respond_posted {s : Settings} {rs : List Route} (hroutes : routes s = .ok rs) {r : Request}
    (hpost : r.method = "POST") (hpath : IsReportPath s r.path) {texts? : Option (List String)}
    (hbody : readBody r.body = .ok texts?) {limit : Nat} {found : Found}
    (hfound : (findMetrics (texts?.getD []) limit).outcome = .ok found) :
    ∃ response, respond s r limit = .ok response ∧ response.status = 200 ∧
      response.body = Report.body ⟨texts?, found⟩ := by
  have hreport : (Report.ofTexts texts? limit).outcome = .ok ⟨texts?, found⟩ :=
    Logged.outcome_bind_eq_ok.2 ⟨found, hfound, rfl⟩
  have hanswer : answer rs r limit = .ok (written 200 (Report.body ⟨texts?, found⟩)) := by
    rw [answer_posted hroutes hpost hpath, reportOn, hbody]
    simp only [hreport]
  exact ⟨_, bind_eq_ok.2 ⟨rs, hroutes, bind_eq_ok.2 ⟨_, hanswer, rfl⟩⟩, rfl, rfl⟩

/-- No expression of up to 257 characters costs another one its metrics, whatever it is. -/
theorem exists_accounts_of_length {texts : List String} (h : ∀ text ∈ texts, text.length ≤ 257)
    (limit : Nat) :
    ∃ found, (findMetrics texts limit).outcome = .ok found ∧ found.Accounts limit texts :=
  exists_accounts (fun text ht =>
    valuedText_of_length ((stripMacros_length_le text).trans (h text ht))) limit

/-- If the literals of some expressions have the values that they need, then whatever else is wrong
with the expressions, what is found accounts for each of them, and the list of them is answered when
it is posted and no half of a character stands alone in it. -/
theorem report_accounts {texts : List String}
    (h : ∀ text ∈ texts, ValuedText (stripMacros text)) (limit : Nat) :
    ∃ found, (findMetrics texts limit).outcome = .ok found ∧ found.Accounts limit texts ∧
      ∀ (s : Settings) (rs : List Route) (r : Request) (texts? : Option (List String)),
        routes s = .ok rs → r.method = "POST" → IsReportPath s r.path →
          IsSent (.lenient digitLimit) texts? r.body → texts?.getD [] = texts →
            ∃ response, respond s r limit = .ok response ∧ response.status = 200 ∧
              response.body = Report.body ⟨texts?, found⟩ := by
  obtain ⟨found, houtcome, haccounts⟩ := exists_accounts h limit
  refine ⟨found, houtcome, haccounts, ?_⟩
  rintro s rs r texts? hroutes hpost hpath hsent rfl
  exact respond_posted hroutes hpost hpath hsent.readBody houtcome

/-- A list of texts that is posted. -/
def posted (texts : List String) : Request where
  method := "POST"
  path := "/parse"
  body := Utf8.bytesOf ((Document.ofTexts texts).write .compact).toList
  origin? := none

theorem isSent_posted (texts : List String) :
    IsSent (.lenient digitLimit) (some texts) (posted texts).body := by
  have hspelled : Spelled (.lenient digitLimit) 1 (.ofTexts texts)
      ((Document.ofTexts texts).write .compact).toList :=
    spelled_write isStandard_compact (writable_ofTexts texts 0)
  refine ⟨[], _, [], 1, _, ?_, isBlanks_nil, hspelled, sends_ofTexts texts⟩
  rw [List.nil_append, List.append_nil]
  rfl

theorem report_accounts_unclosed :
    (∀ text ∈ ["rate(up[$span])", "sum("], ValuedText (stripMacros text)) ∧
    ∃ found, (findMetrics ["rate(up[$span])", "sum("]).outcome = .ok found ∧
      found.Accounts callLimit ["rate(up[$span])", "sum("] ∧
      ∃ response, respond .standard (posted ["rate(up[$span])", "sum("]) = .ok response ∧
        response.status = 200 ∧
        response.body = Report.body ⟨some ["rate(up[$span])", "sum("], found⟩ := by
  have hvalued : ∀ text ∈ ["rate(up[$span])", "sum("], ValuedText (stripMacros text) := by
    intro text ht
    have hlength : text.length ≤ 257 := by
      revert text
      decide
    exact valuedText_of_length ((stripMacros_length_le text).trans hlength)
  obtain ⟨found, houtcome, haccounts, hposted⟩ := report_accounts hvalued callLimit
  obtain ⟨rs, hroutes⟩ : ∃ rs, routes .standard = .ok rs := exists_of_isOk (by decide +kernel)
  have hpath : IsReportPath .standard "/parse" :=
    ⟨"/parse", by decide, "/parse".toList.map .char, by decide +kernel, by decide +kernel⟩
  exact ⟨hvalued, found, houtcome, haccounts,
    hposted .standard rs _ _ hroutes rfl hpath (isSent_posted _) rfl⟩

/-- A hexadecimal number past the greatest double, of 258 characters. -/
def pastDoubles : List Char := '0' :: 'x' :: List.replicate 256 'f'

theorem lexemes_pastDoubles : lexemes (String.ofList pastDoubles) =
    .ok [⟨.number, String.ofList pastDoubles, 0⟩] := by
  have hpieces : pieces pastDoubles =
      .ok [.lexeme .number (String.ofList pastDoubles) pastDoubles] := by decide +kernel
  rw [lexemes, String.toList_ofList, hpieces]
  rfl

theorem stripMacros_pastDoubles :
    stripMacros (String.ofList pastDoubles) = String.ofList pastDoubles := by
  rw [stripMacros, String.toList_ofList]
  exact congrArg String.ofList (by decide +kernel)

/-- A literal past the greatest double costs the other expressions their metrics too. -/
theorem report_lost :
    ¬ ∃ found, (findMetrics ["up", String.ofList pastDoubles]).outcome = .ok found := by
  rintro ⟨found, h⟩
  rw [findMetrics_outcome] at h
  have hmalformed := (metricsOf_eq_ok.1 h).1 (String.ofList pastDoubles) (by simp)
  have hvalue : numberValue pastDoubles = .error .tooLarge := by decide +kernel
  rw [stripMacros_pastDoubles] at hmalformed
  refine hmalformed .tooLarge (parse_of_first_literal lexemes_pastDoubles ?_ (by decide))
  rw [Token.literal?, if_pos (.inl rfl), String.toList_ofList, hvalue]

end PanelExport.Service
