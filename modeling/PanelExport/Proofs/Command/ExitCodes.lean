import PanelExport.Proofs.Command.ExportCourse
import PanelExport.Proofs.Remote.Sending

/-!
# What the number of an export tells

An export ends with zero exactly if it has saved its file, and with any other number it leaves the
files as they are. The number for configuration is the end of an export that has sent nothing. The
one for the server tells of a request that was sent, with one exception: a token that cannot be
sent.

* `Command.finishCourse_of_ok`, `Command.finishCourse_of_error`: what comes of a course.
* `Command.Sends`, `Command.Saved`, `Command.CodeTells`: what is told of a run.
* `Command.unloaded_unsent_iff`: when a request that was not sent ends an export.
* `Command.perform_export_codes`: what the number tells.
-/

namespace PanelExport

namespace Command

/-! ## Finished runs -/

section Finished

variable {x : Course Completion} {printed : List Item} {saved : List Event} {sent : List Request}

/-- What comes of a course with a value. -/
theorem finishCourse_of_ok {done : Completion} (h : x.ComesTo printed saved sent (.ok done))
    (files : FileTree) :
    (finishCourse x files).code = done.code.number ∧ (finishCourse x files).sent = sent ∧
      (finishCourse x files).files = done.files ∧
      savedEvents (finishCourse x files).events = saved ∧
      printed <:+ (finishCourse x files).printed := by
  have hending : endingOf x = .returned done.code.number := by rw [endingOf, h.outcome]
  have hfiles : filesAfter x files = done.files := by rw [filesAfter, h.outcome]
  simp only [finishCourse, hending, hfiles, Ending.report_returned, List.append_nil]
  exact ⟨trivial, h.sent, trivial, h.saved, h.printed⟩

/-- What comes of a course that ends early. -/
theorem finishCourse_of_error {e : Ending} (h : x.ComesTo printed saved sent (.error e))
    (files : FileTree) :
    (finishCourse x files).code = e.code ∧ (finishCourse x files).sent = sent ∧
      (finishCourse x files).files = files ∧
      savedEvents (finishCourse x files).events = saved := by
  have hending : endingOf x = e := by rw [endingOf, h.outcome]
  have hfiles : filesAfter x files = files := by rw [filesAfter, h.outcome]
  simp only [finishCourse, hending, hfiles, savedEvents_append, h.saved,
    savedEvents_eq_nil_iff.2 e.report_savesNothing, List.append_nil]
  exact ⟨rfl, h.sent, trivial, trivial⟩

end Finished

/-! ## What is sent -/

/-- What an export sends: nothing, or one request for its dashboard, or behind that one request for
the results of a batch. -/
inductive Sends (words : ExportWords) (w : Surroundings) : List Request → Prop where
  | nothing : Sends words w []
  | dashboard {s : Session} {v : Server} {first : Request}
      (opened : openSession words.parameters w = .ok (s, v))
      (dashboard : (v.dashboardRequest s.params.dashboardUid).sent? = some first) :
      Sends words w [first]
  | results {s : Session} {v : Server} {first second : Request} {batch : Batch}
      (opened : openSession words.parameters w = .ok (s, v))
      (dashboard : (v.dashboardRequest s.params.dashboardUid).sent? = some first)
      (results : (v.queryRequest batch.toDocument).sent? = some second) :
      Sends words w [first, second]

/-- The request of an export for its dashboard has an address, but its token cannot be sent. -/
def HasUnsendableToken (words : ExportWords) (w : Surroundings) : Prop :=
  ∃ s v a token, openSession words.parameters w = .ok (s, v) ∧
    (v.dashboardRequest s.params.dashboardUid).address = .ok a ∧ v.token? = some token ∧
    ¬ IsPlainText token

theorem requestsFor_singleton (v : Server) (call : ServerCall) :
    v.requestsFor [call] = (v.requestFor call).sent?.toList := by
  cases h : (v.requestFor call).sent? <;> simp [Server.requestsFor, h]

theorem requestsFor_dashboard (v : Server) (uid : String) :
    v.requestsFor [.dashboard uid] = (v.dashboardRequest uid).sent?.toList :=
  requestsFor_singleton v _

section Unsent

variable {words : ExportWords} {w : Surroundings} {s : Session} {v : Server}

/-- A token stands in the way of a request for a dashboard. -/
theorem sendFault?_ne_none_iff {uid : String} : (v.dashboardRequest uid).sendFault? ≠ none ↔
    ∃ token, v.token? = some token ∧ ¬ IsPlainText token := by
  rw [Ne, Server.dashboardRequest_sendFault?_eq_none_iff]
  simp only [Classical.not_forall, exists_prop]

theorem hasUnsendableToken_iff (opened : openSession words.parameters w = .ok (s, v)) :
    HasUnsendableToken words w ↔
      (∃ a, (v.dashboardRequest s.params.dashboardUid).address = .ok a) ∧
        (v.dashboardRequest s.params.dashboardUid).sendFault? ≠ none := by
  rw [sendFault?_ne_none_iff]
  constructor
  · rintro ⟨s', v', a, token, hopened, ha, htoken, hplain⟩
    rw [opened] at hopened
    cases hopened
    exact ⟨⟨a, ha⟩, token, htoken, hplain⟩
  · rintro ⟨⟨a, ha⟩, token, htoken, hplain⟩
    exact ⟨s, v, a, token, opened, ha, htoken, hplain⟩

theorem not_hasUnsendableToken {first : Request}
    (opened : openSession words.parameters w = .ok (s, v))
    (hfirst : (v.dashboardRequest s.params.dashboardUid).sent? = some first) :
    ¬ HasUnsendableToken words w := by
  rw [hasUnsendableToken_iff opened,
    ← Request.failed_unsent_iff (w.transport (v.dashboardRequest s.params.dashboardUid))]
  rintro ⟨hunsent, -⟩
  cases hunsent.symm.trans hfirst

/-- A request for a dashboard that was not sent fails the export like one that the server refuses
only if its token stood in the way. -/
theorem unloaded_unsent_iff {fault : RunFault}
    (opened : openSession words.parameters w = .ok (s, v))
    (h : s.fetched (loadReply s v w) = .error fault) :
    ((Ending.ofFault fault).code = 11 ∧
      (v.dashboardRequest s.params.dashboardUid).sent? = none) ↔ HasUnsendableToken words w := by
  rw [hasUnsendableToken_iff opened, ← Request.failed_unsent_iff (w.transport _), ← loadReply_eq]
  have hnumber : (127 : Int) ≠ 11 := by decide
  constructor
  · rintro ⟨hcode, hunsent⟩
    refine ⟨hunsent, ?_⟩
    cases hload : loadReply s v w with
    | ok d =>
      rw [loadReply_eq] at hload
      obtain ⟨sent, hsent⟩ := Request.exists_sent_of_ok hload
      cases hunsent.symm.trans hsent
    | error f =>
      rw [hload, Session.fetched_of_error] at h
      rw [← Except.error.inj h] at hcode
      cases f with
      | failed f => exact ⟨f, rfl⟩
      | address _ => exact absurd hcode hnumber
      | tooDeep => exact absurd hcode hnumber
  · rintro ⟨hunsent, f, hload⟩
    rw [hload, Session.fetched_of_error] at h
    rw [← Except.error.inj h]
    exact ⟨rfl, hunsent⟩

end Unsent

/-! ## What the number tells -/

/-- One file was saved: the lines that the results convert to, one below the other. Nothing else was
written, and users were told last how many lines there are and where. -/
inductive Saved (words : ExportWords) (w : Surroundings) (f : Finish) : Prop where
  | intro {s : Session} {v : Server} {first second : Request} {batch : Batch} {d : Document}
      {result : QueryResult} {path : Path} (opened : openSession words.parameters w = .ok (s, v))
      (sent : f.sent = [first, second])
      (asked : (v.queryRequest batch.toDocument).sent? = some second)
      (replied : (v.respond w.transport (.results batch)).outcome = .ok d)
      (decoded : QueryResult.ofDocument d = .ok result)
      (wrote : w.files.Wrote path.place ("\n".intercalate result.lines) f.files)
      (told : savedEvents f.events = [FileTree.savedEvent path result.text])
      (said : f.printed.getLast? = some (.success ("Wrote " ++ toString result.lines.length ++
        " lines to " ++ path.text)))

/-- What the number of an export tells of it. -/
structure CodeTells (words : ExportWords) (w : Surroundings) (f : Finish) : Prop where
  code : f.code ∈ [0, 1, 10, 11, 127]
  sends : Sends words w f.sent
  success : f.code = 0 ↔ Saved words w f
  unsaved : f.code ≠ 0 → f.files = w.files ∧ SavesNothing f.events
  warning : f.code = 1 → ∃ first, f.sent = [first]
  configuration : f.code = 10 → f.sent = []
  server : f.code = 11 ∧ f.sent = [] ↔ HasUnsendableToken words w

variable {words : ExportWords} {w : Surroundings} {f : Finish}

theorem Saved.savedEvents_ne_nil (h : Saved words w f) : savedEvents f.events ≠ [] := by
  obtain ⟨_, _, _, _, _, _, told, _⟩ := h
  rw [told]
  exact nofun

/-- A run that saved nothing ends with another number than zero. -/
theorem CodeTells.of_unsaved (code : f.code ∈ [1, 10, 11, 127]) (sends : Sends words w f.sent)
    (files : f.files = w.files) (saved : savedEvents f.events = [])
    (warning : f.code = 1 → ∃ first, f.sent = [first]) (configuration : f.code = 10 → f.sent = [])
    (server : f.code = 11 ∧ f.sent = [] ↔ HasUnsendableToken words w) : CodeTells words w f where
  code := List.mem_cons_of_mem _ code
  sends
  success := by
    have hcode : f.code ≠ 0 := fun h => by simp [h] at code
    exact ⟨fun h => absurd h hcode, fun h => absurd saved h.savedEvents_ne_nil⟩
  unsaved _ := ⟨files, savedEvents_eq_nil_iff.1 saved⟩
  warning
  configuration
  server

/-- The same for an export that ends early. -/
theorem CodeTells.of_error {sent : List Request} {e : Ending}
    (h : (exportCourse words w).ComesTo [] [] sent (.error e)) (code : e.code ∈ [10, 11, 127])
    (sends : Sends words w sent) (configuration : e.code = 10 → sent = [])
    (server : e.code = 11 ∧ sent = [] ↔ HasUnsendableToken words w) :
    CodeTells words w (finishCourse (exportCourse words w) w.files) := by
  obtain ⟨hcode, hsent, hfiles, hsaved⟩ := finishCourse_of_error h w.files
  rw [← hsent] at sends configuration server
  rw [← hcode] at code configuration server
  refine .of_unsaved (List.mem_cons_of_mem _ code) sends hfiles hsaved ?_ configuration server
  intro hone
  rw [hone] at code
  exact absurd code (by decide)

/-- The same for a fault that shows only after something was asked for. -/
theorem CodeTells.of_late {sent : List Request} {fault : RunFault} (late : fault.IsLate)
    (h : (exportCourse words w).ComesTo [] [] sent (.error (.ofFault fault)))
    (sends : Sends words w sent)
    (server : (Ending.ofFault fault).code = 11 ∧ sent = [] ↔ HasUnsendableToken words w) :
    CodeTells words w (finishCourse (exportCourse words w) w.files) := by
  have hcode : (Ending.ofFault fault).code = 11 ∨ (Ending.ofFault fault).code = 127 := late
  refine .of_error h ?_ sends ?_ server
  · rcases hcode with hcode | hcode <;> simp [hcode]
  · rcases hcode with hcode | hcode <;> simp [hcode]

section Cases

variable {s : Session} {v : Server} {first : Request}

theorem codeTells_of_refused {e : Ending} (h : openSession words.parameters w = .error e) :
    CodeTells words w (finishCourse (exportCourse words w) w.files) := by
  have hcode : e.code = 10 ∨ e.code = 127 := openSession_code h
  refine .of_error (exportCourse_of_error h) ?_ .nothing (fun _ => rfl) (iff_of_false ?_ ?_)
  · rcases hcode with hcode | hcode <;> simp [hcode]
  · rcases hcode with hcode | hcode <;> simp [hcode]
  · rintro ⟨s, v, a, token, hopened, -⟩
    cases h.symm.trans hopened

theorem codeTells_of_unloaded {fault : RunFault}
    (opened : openSession words.parameters w = .ok (s, v))
    (h : s.fetched (loadReply s v w) = .error fault) :
    CodeTells words w (finishCourse (exportCourse words w) w.files) := by
  have hcomes := exportCourse_of_unloaded opened h
  rw [requestsFor_dashboard] at hcomes
  refine .of_late (Session.fetched_isLate h) hcomes ?_ ?_
  · cases hfirst : (v.dashboardRequest s.params.dashboardUid).sent? with
    | none => exact .nothing
    | some first => exact .dashboard opened hfirst
  · rw [Option.toList_eq_nil_iff]
    exact unloaded_unsent_iff opened h

/-- After its request for the dashboard an export sends at most the one for its batch. -/
theorem sends_results (opened : openSession words.parameters w = .ok (s, v))
    (hfirst : (v.dashboardRequest s.params.dashboardUid).sent? = some first) (batch : Batch) :
    Sends words w (first :: v.requestsFor [.results batch]) := by
  rw [requestsFor_singleton]
  cases hsecond : (v.requestFor (.results batch)).sent? with
  | none => exact .dashboard opened hfirst
  | some second => exact .results opened hfirst hsecond

theorem exportItems_getLast? {e : Export} {d : Document} {result : QueryResult} {path : Path}
    {files files' : FileTree} (h : e.Saves d result path files files') :
    (exportItems e).getLast? = some (.success ("Wrote " ++ toString result.lines.length ++
      " lines to " ++ path.text)) := by
  simp [exportItems, h.path, h.lineCount]

theorem getLast?_of_suffix {items all : List Item} {last : Item} (h : items <:+ all)
    (hlast : items.getLast? = some last) : all.getLast? = some last := by
  obtain ⟨before, rfl⟩ := h
  rw [List.getLast?_append, hlast]
  rfl

theorem codeTells_of_saved {batch : Batch} {d : Document} {result : QueryResult} {path : Path}
    {files : FileTree} {e : Export} (opened : openSession words.parameters w = .ok (s, v))
    (hfirst : (v.dashboardRequest s.params.dashboardUid).sent? = some first)
    (replied : (v.respond w.transport (.results batch)).outcome = .ok d)
    (saves : e.Saves d result path w.files files)
    (h : (exportCourse words w).ComesTo (exportItems e) [FileTree.savedEvent path result.text]
      (first :: v.requestsFor [.results batch]) (.ok ⟨.success, files⟩)) :
    CodeTells words w (finishCourse (exportCourse words w) w.files) := by
  obtain ⟨hcode, hsent, hfiles, hsaved, hprinted⟩ := finishCourse_of_ok h w.files
  have hzero : (finishCourse (exportCourse words w) w.files).code = 0 := hcode
  have hwrote : w.files.Wrote path.place result.text
      (finishCourse (exportCourse words w) w.files).files := by
    rw [hfiles]
    exact saves.wrote
  have hlast := getLast?_of_suffix hprinted (exportItems_getLast? saves)
  obtain ⟨second, hsecond⟩ := Server.exists_sent_of_ok replied
  rw [requestsFor_singleton, hsecond, Option.toList_some] at hsent
  exact
    { code := by simp [hzero]
      sends := hsent ▸ .results opened hfirst hsecond
      success := iff_of_true hzero
        (.intro opened hsent hsecond replied saves.decoded hwrote hsaved hlast)
      unsaved := fun h => absurd hzero h
      warning := by simp [hzero]
      configuration := by simp [hzero]
      server := iff_of_false (by simp [hzero]) (not_hasUnsendableToken opened hfirst) }

theorem codeTells_of_loaded {panel : Panel}
    (opened : openSession words.parameters w = .ok (s, v))
    (h : s.fetched (loadReply s v w) = .ok panel) :
    CodeTells words w (finishCourse (exportCourse words w) w.files) := by
  obtain ⟨d, hload⟩ := Session.exists_of_fetched h
  rw [loadReply_eq] at hload
  obtain ⟨first, hfirst⟩ := Request.exists_sent_of_ok hload
  have hplain := not_hasUnsendableToken opened hfirst
  obtain ⟨printed, saved, sent, outcome, hbatched, hcomes⟩ := exportCourse_of_loaded opened h
  rw [requestsFor_dashboard, hfirst, Option.toList_some, List.singleton_append] at hcomes
  cases hbatched with
  | nothing =>
    obtain ⟨hcode, hsent, hfiles, hsaved, -⟩ := finishCourse_of_ok hcomes w.files
    have hone : (finishCourse (exportCourse words w) w.files).code = 1 := hcode
    refine .of_unsaved ?_ ?_ hfiles hsaved (fun _ => ⟨first, hsent⟩) ?_ ?_
    · simp [hone]
    · rw [hsent]
      exact .dashboard opened hfirst
    · simp [hone]
    · exact iff_of_false (by simp [hone]) hplain
  | broken =>
    exact .of_late (.inr rfl) hcomes (.dashboard opened hfirst) (iff_of_false nofun hplain)
  | failed late =>
    exact .of_late late hcomes (sends_results opened hfirst _) (iff_of_false nofun hplain)
  | saved replied saves => exact codeTells_of_saved opened hfirst replied saves hcomes

/-- A token that cannot be sent ends the export like a request that the server refuses. -/
theorem finishCourse_of_hasUnsendableToken (h : HasUnsendableToken words w) :
    (finishCourse (exportCourse words w) w.files).code = 11 ∧
      (finishCourse (exportCourse words w) w.files).sent = [] := by
  obtain ⟨s, v, -, -, opened, -⟩ := id h
  cases hfetched : s.fetched (loadReply s v w) with
  | error fault => exact (codeTells_of_unloaded opened hfetched).server.2 h
  | ok panel => exact (codeTells_of_loaded opened hfetched).server.2 h

end Cases

/-- An export ends with one of five numbers, after at most one request for its dashboard and one for
results. Zero tells that one file was saved, every other number that none was. The number for a
warning tells of one request for the dashboard, and the one for configuration of none at all. The
number for the server tells of a request for the dashboard too, except if its token cannot be
sent. -/
theorem perform_export_codes (words : ExportWords) (w : Surroundings) :
    ∃ f, perform (.export words) w = .ok f ∧ CodeTells words w f := by
  refine ⟨finishCourse (exportCourse words w) w.files, rfl, ?_⟩
  cases hopened : openSession words.parameters w with
  | error e => exact codeTells_of_refused hopened
  | ok opened =>
    obtain ⟨s, v⟩ := opened
    cases hfetched : s.fetched (loadReply s v w) with
    | error fault => exact codeTells_of_unloaded hopened hfetched
    | ok panel => exact codeTells_of_loaded hopened hfetched

/-- The words for a panel of a board. -/
def boardWords : ExportWords where
  dashboard? := some "board"
  panel? := some "1"
  timeRange? := some "\x7b\"from\":\"1\",\"to\":\"2\"\x7d"
  directory? := none
  datasource? := none

/-- A server that is up, and a token with an accent. -/
def accentedToken : Surroundings where
  environment := [("PANELDUMP_GRAFANA_TOKEN", "é")]
  transport _ := .answered 200 []
  files := .empty

/-- The number for the server, without any request. -/
theorem perform_export_unsent : ∃ f, perform (.export boardWords) accentedToken = .ok f ∧
    f.code = 11 ∧ f.sent = [] := by
  have hsession : (openSession boardWords.parameters accentedToken).toOption.map (fun opened =>
      ((opened.2.dashboardRequest opened.1.params.dashboardUid).address.isOk, opened.2.token?)) =
        some (true, some "é") := by
    decide +kernel
  have htoken : HasUnsendableToken boardWords accentedToken := by
    cases hopened : openSession boardWords.parameters accentedToken with
    | error e =>
      rw [hopened] at hsession
      cases hsession
    | ok opened =>
      rw [hopened] at hsession
      obtain ⟨haddress, htoken⟩ := Prod.mk.inj (Option.some.inj hsession)
      obtain ⟨a, ha⟩ := exists_of_isOk haddress
      exact ⟨opened.1, opened.2, a, "é", hopened, ha, htoken, by
        rw [← asciiFault?_eq_none_iff]
        decide +kernel⟩
  exact ⟨_, rfl, finishCourse_of_hasUnsendableToken htoken⟩

end Command

end PanelExport
