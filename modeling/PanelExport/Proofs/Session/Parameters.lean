import PanelExport.Command.Run
import PanelExport.Proofs.Outcome

/-!
# Bad parameters

What comes of parameters that are absent, nothing or texts: what an export needs to know, or a
failure that names one of them, and then the code for configuration is the number of the command.
There is one exception, a time range with a bound that is not-a-number or infinite.

* `normalizeBound_eq_ok_iff`, `normalizeBound_eq_number_iff`: which values are bounds.
* `TimeRange.ofText_eq_number_iff`: which texts break the reading of a time range.
* `Command.endsWith_of_fault`: the number of a command whose parameters cannot be used.
* `Command.queriesParameters_settled`: a command that shows queries has no exception.
* `ExportParams.ofFields_settled`: what parameters come to, and when.
* `ExportParams.ofFields_unsettled`: parameters that come to something else.
-/

namespace PanelExport

open Document

/-! ## Bounds -/

/-- A value can be a bound of a time range. -/
inductive IsBound : Document → Prop
  | int (n : Int) : IsBound (.int n)
  | finite {negative : Bool} {mantissa : Nat} {exponent : Int}
      (fits : FitsDouble mantissa exponent) :
      IsBound (.float (.finite negative mantissa exponent fits))
  | text (s : String) : IsBound (.text s)

/-- A number has no whole part. -/
inductive Wholeless : Document → NumberFault → Prop
  | nan : Wholeless (.float .nan) .notANumber
  | infinite (negative : Bool) : Wholeless (.float (.infinite negative)) .infinite

/-- A bound is accepted just if it is one. -/
theorem normalizeBound_eq_ok_iff {d : Document} :
    (∃ s, normalizeBound d = .ok s) ↔ IsBound d := by
  constructor
  · rintro ⟨s, h⟩
    cases d with
    | int n => exact .int n
    | text s => exact .text s
    | float x =>
      cases x with
      | finite negative mantissa exponent fits => exact .finite fits
      | nan => cases h
      | infinite negative => cases h
    | _ => cases h
  · rintro (n | fits | s)
    · exact ⟨_, rfl⟩
    · exact ⟨_, rfl⟩
    · exact ⟨_, rfl⟩

/-- A bound has no whole number just if it is refused for that. -/
theorem normalizeBound_eq_number_iff {d : Document} {fault : NumberFault} :
    normalizeBound d = .error (.number fault) ↔ Wholeless d fault := by
  constructor
  · intro h
    cases d with
    | float x =>
      cases x with
      | nan =>
        cases h
        exact .nan
      | infinite negative =>
        cases h
        exact .infinite negative
      | finite negative mantissa exponent fits => cases h
    | _ => cases h
  · rintro (- | negative)
    · rfl
    · rfl

/-- No bound is nested too deeply. -/
theorem normalizeBound_ne_tooDeep (d : Document) : normalizeBound d ≠ .error .tooDeep := by
  cases d with
  | float x => cases x <;> exact nofun
  | _ => exact nofun

namespace TimeRange

/-- Some fields have both bounds of a time range, and neither is blank. -/
structure HasBounds (fields : Fields) (start finish : Document) : Prop where
  start_eq : fields.lookup "from" = some start
  finish_eq : fields.lookup "to" = some finish
  start_present : start.isBlankValue = false
  finish_present : finish.isBlankValue = false

/-- The first bound of a text that is no bound is a number without a whole part. -/
def Breaks (text : String) (fault : NumberFault) : Prop :=
  ∃ fields start finish, Document.read text.toList = .ok (.object fields) ∧
    HasBounds fields start finish ∧
    (Wholeless start fault ∨ IsBound start ∧ Wholeless finish fault)

variable {fields : Fields}

/-- With both bounds there, a range is accepted if they are, the start first. -/
theorem ofFields_of_hasBounds {start finish : Document} (h : HasBounds fields start finish) :
    ofFields fields = (do
      let s ← normalizeBound start
      let f ← normalizeBound finish
      return ⟨s, f⟩) := by
  simp [ofFields, h.start_eq, h.finish_eq, h.start_present, h.finish_present]

theorem exists_of_present {name : String}
    (h : ((fields.lookup name).getD .null).isBlankValue = false) :
    ∃ d, fields.lookup name = some d ∧ d.isBlankValue = false := by
  cases hd : fields.lookup name with
  | none =>
    rw [hd] at h
    cases h
  | some d =>
    rw [hd] at h
    exact ⟨d, rfl, h⟩

/-- Without one of the bounds the range is refused for what is missing. -/
theorem ofFields_of_not_hasBounds (h : ∀ start finish, ¬ HasBounds fields start finish) :
    ∃ names, ofFields fields = .error (.missing names) := by
  have hmissing : ¬ (["from", "to"].filter fun name =>
      ((fields.lookup name).getD .null).isBlankValue).isEmpty := by
    intro hempty
    have hpresent : ∀ name ∈ ["from", "to"],
        ((fields.lookup name).getD .null).isBlankValue = false := by
      simpa using hempty
    obtain ⟨start, hstart, hs⟩ := exists_of_present (hpresent "from" (by simp))
    obtain ⟨finish, hfinish, hf⟩ := exists_of_present (hpresent "to" (by simp))
    exact h start finish ⟨hstart, hfinish, hs, hf⟩
  exact ⟨_, if_neg hmissing⟩

/-- Fields that give no time range lack a bound, or the first of their bounds that is none is to
blame. -/
theorem ofFields_eq_error {fault : TimeRangeFault} (h : ofFields fields = .error fault) :
    (∃ names, fault = .missing names) ∨ ∃ start finish, HasBounds fields start finish ∧
      (normalizeBound start = .error fault ∨
        IsBound start ∧ normalizeBound finish = .error fault) := by
  by_cases hbounds : ∃ start finish, HasBounds fields start finish
  · obtain ⟨start, finish, hbounds⟩ := hbounds
    rw [ofFields_of_hasBounds hbounds] at h
    refine .inr ⟨start, finish, hbounds, ?_⟩
    rcases bind_eq_error.1 h with h | ⟨s, hs, h⟩
    · exact .inl h
    · rcases bind_eq_error.1 h with h | ⟨f, -, h⟩
      · exact .inr ⟨normalizeBound_eq_ok_iff.1 ⟨s, hs⟩, h⟩
      · cases h
  · obtain ⟨names, hnames⟩ := ofFields_of_not_hasBounds fun start finish hb =>
      hbounds ⟨start, finish, hb⟩
    exact .inl ⟨names, Except.error.inj (h.symm.trans hnames)⟩

/-- No range of two bounds is nested too deeply. -/
theorem ofFields_ne_tooDeep (fields : Fields) : ofFields fields ≠ .error .tooDeep := by
  intro h
  rcases ofFields_eq_error h with ⟨names, hnames⟩ | ⟨start, finish, -, hs | ⟨-, hf⟩⟩
  · cases hnames
  · exact normalizeBound_ne_tooDeep start hs
  · exact normalizeBound_ne_tooDeep finish hf

/-- The reading of a text comes to a number without a whole part only where the text breaks it. -/
theorem ofText_eq_number_iff {text : String} {fault : NumberFault} :
    ofText text = .error (.number fault) ↔ Breaks text fault := by
  constructor
  · intro h
    unfold ofText at h
    split at h
    case h_1 fields hread =>
      rcases ofFields_eq_error h with ⟨names, hnames⟩ | ⟨start, finish, hbounds, hfault⟩
      · cases hnames
      · rw [normalizeBound_eq_number_iff, normalizeBound_eq_number_iff] at hfault
        exact ⟨fields, start, finish, hread, hbounds, hfault⟩
    all_goals cases h
  · rintro ⟨fields, start, finish, hread, hbounds, hfault⟩
    rw [ofText, hread]
    refine (ofFields_of_hasBounds hbounds).trans (bind_eq_error.2 ?_)
    rcases hfault with h | ⟨hs, h⟩
    · exact .inl (normalizeBound_eq_number_iff.2 h)
    · obtain ⟨s, hs⟩ := normalizeBound_eq_ok_iff.2 hs
      exact .inr ⟨s, hs, bind_eq_error.2 (.inl (normalizeBound_eq_number_iff.2 h))⟩

/-- The fault of the number without a whole part to which the reading of a text comes. -/
def numberFault? : Except TimeRangeFault TimeRange → Option NumberFault
  | .error (.number fault) => some fault
  | _ => none

theorem numberFault?_eq_some_iff {x : Except TimeRangeFault TimeRange} {fault : NumberFault} :
    numberFault? x = some fault ↔ x = .error (.number fault) := by
  cases x with
  | ok r => simp [numberFault?]
  | error f => cases f <;> simp [numberFault?]

instance (text : String) (fault : NumberFault) : Decidable (Breaks text fault) :=
  decidable_of_iff (numberFault? (ofText text) = some fault)
    (numberFault?_eq_some_iff.trans ofText_eq_number_iff)

theorem ofText_eq_tooDeep_iff {text : String} :
    ofText text = .error .tooDeep ↔ Document.read text.toList = .error .tooDeep := by
  constructor
  · intro h
    unfold ofText at h
    split at h
    case h_1 fields hread => exact absurd h (ofFields_ne_tooDeep fields)
    case h_3 hread => exact hread
    all_goals cases h
  · intro h
    rw [ofText, h]

end TimeRange

/-! ## Parameters -/

namespace ExportParams

/-- Each of the parameters is absent, nothing or a text. -/
def Textual (fields : Fields) : Prop :=
  ∀ name ∈ required, ∀ d, fields.lookup name = some d → d = .null ∨ ∃ s, d = .text s

/-- A parameter is given as a text that is not blank. -/
def Given (fields : Fields) (name text : String) : Prop :=
  fields.lookup name = some (.text text) ∧ isBlankText text = false

/-- A parameter is the first one that is not given. -/
def FirstMissing (fields : Fields) (name : String) : Prop :=
  ∃ before after, required = before ++ name :: after ∧
    (∀ earlier ∈ before, ∃ text, Given fields earlier text) ∧ ¬ ∃ text, Given fields name text

/-- All parameters are given, each as a text. -/
structure AllGiven (fields : Fields) (uid panel range : String) : Prop where
  dashboard : Given fields "dashboard" uid
  panel : Given fields "panel" panel
  timerange : Given fields "timerange" range

/-- The last of the parameters, the time range, is reached, and its reading breaks. -/
inductive Breaks (fields : Fields) : RunFault → Prop
  | tooDeep {uid panel range : String} {id : Int} : AllGiven fields uid panel range →
      readInt? (trim panel).toList = some id → Document.read range.toList = .error .tooDeep →
      Breaks fields .tooDeep
  | number {uid panel range : String} {id : Int} {fault : NumberFault} :
      AllGiven fields uid panel range → readInt? (trim panel).toList = some id →
      TimeRange.Breaks range fault → Breaks fields (.number fault)

/-- Parameters come to what they give, or to a failure that names the first of them that is missing,
or else the first one that cannot be read. -/
inductive Settled (fields : Fields) : Except RunFault ExportParams → Prop
  | params {uid panel range : String} {id : Int} {r : TimeRange} :
      AllGiven fields uid panel range → isBlankText (trim uid) = false →
      readInt? (trim panel).toList = some id → TimeRange.ofText range = .ok r →
      Settled fields (.ok ⟨trim uid, id, r⟩)
  | missing {name : String} : FirstMissing fields name →
      Settled fields (.error (.failure (.missingParameter name)))
  | panel {uid panel range : String} : AllGiven fields uid panel range →
      readInt? (trim panel).toList = none →
      Settled fields (.error (.failure (.invalidParameter "panel" "expected an integer")))
  | timerange {uid panel range : String} {id : Int} {fault : TimeRangeFault} :
      AllGiven fields uid panel range → readInt? (trim panel).toList = some id →
      TimeRange.ofText range = .error fault →
      Settled fields (.error (.failure (.invalidParameter "timerange" fault.message)))

section Values

variable {fields : Fields}

/-- A required parameter is given if a text is that is not empty. -/
theorem isGiven_iff (h : Textual fields) {name : String} (hname : name ∈ required) :
    isGiven (valueAt fields name) = true ↔ ∃ text, Given fields name text := by
  unfold valueAt Given
  cases hd : fields.lookup name with
  | none => simp [isGiven]
  | some d =>
    rcases h name hname d hd with rfl | ⟨s, rfl⟩ <;> simp [isGiven]

/-- The parameter that is missed is the first one that is not given. -/
theorem firstMissing_of_find? (h : Textual fields) {name : String}
    (hfind : (required.find? fun name => !isGiven (valueAt fields name)) = some name) :
    FirstMissing fields name := by
  obtain ⟨hmissing, before, after, hsplit, hbefore⟩ := List.find?_eq_some_iff_append.1 hfind
  refine ⟨before, after, hsplit, fun earlier hearlier => ?_, ?_⟩
  · exact (isGiven_iff h (by simp [hsplit, hearlier])).1 (by simpa using hbefore earlier hearlier)
  · rw [← isGiven_iff h (by simp [hsplit])]
    simpa using hmissing

/-- Where none is missed all of them are given. -/
theorem allGiven_of_find? (h : Textual fields)
    (hfind : (required.find? fun name => !isGiven (valueAt fields name)) = none) :
    ∃ uid panel range, AllGiven fields uid panel range := by
  have hgiven : ∀ name ∈ required, ∃ text, Given fields name text := fun name hname =>
    (isGiven_iff h hname).1 (by simpa using List.find?_eq_none.1 hfind name hname)
  obtain ⟨uid, huid⟩ := hgiven "dashboard" (by decide)
  obtain ⟨panel, hpanel⟩ := hgiven "panel" (by decide)
  obtain ⟨range, hrange⟩ := hgiven "timerange" (by decide)
  exact ⟨uid, panel, range, huid, hpanel, hrange⟩

theorem shown_valueAt {name text : String} (h : Given fields name text) :
    (valueAt fields name).shown = text := by
  rw [valueAt, h.1, Option.getD_some, shown_text]

theorem isGiven_valueAt {name text : String} (h : Given fields name text) :
    isGiven (valueAt fields name) = true := by
  rw [valueAt, h.1, Option.getD_some, isGiven, h.2]
  rfl

/-- Where all parameters are given, the panel is read first and then the time range. -/
theorem ofFields_of_allGiven {uid panel range : String} (h : AllGiven fields uid panel range) :
    ofFields fields = (do
      let id ← readPanel (.text panel)
      let r ← readRange (.text range)
      return ⟨trim uid, id, r⟩) := by
  have hfind : (required.find? fun name => !isGiven (valueAt fields name)) = none := by
    rw [List.find?_eq_none]
    simp [required, isGiven_valueAt h.dashboard, isGiven_valueAt h.panel,
      isGiven_valueAt h.timerange]
  rw [ofFields, hfind]
  simp only [readPanel, readRange, shown_valueAt h.dashboard, shown_valueAt h.panel,
    shown_valueAt h.timerange, shown_text]

/-- Where the panel is a number, the time range decides. -/
theorem ofFields_of_panel {uid panel range : String} {id : Int}
    (h : AllGiven fields uid panel range) (hid : readInt? (trim panel).toList = some id) :
    ofFields fields = (readRange (.text range)).map fun r => ⟨trim uid, id, r⟩ := by
  have hpanel : readPanel (.text panel) = .ok id := by simp [readPanel, shown_text, hid]
  rw [ofFields_of_allGiven h, hpanel]
  rfl

/-- A range that breaks the reader takes the parameters down with it. -/
theorem ofFields_of_breaks {fault : RunFault} (h : Breaks fields fault) :
    ofFields fields = .error fault := by
  cases h with
  | tooDeep hgiven hid hread =>
    rw [ofFields_of_panel hgiven hid, readRange, shown_text,
      TimeRange.ofText_eq_tooDeep_iff.2 hread]
    rfl
  | number hgiven hid hbreaks =>
    rw [ofFields_of_panel hgiven hid, readRange, shown_text,
      TimeRange.ofText_eq_number_iff.2 hbreaks]
    rfl

/-- All other textual parameters are settled. -/
theorem settled_of_not_breaks (h : Textual fields) (hbreaks : ∀ fault, ¬ Breaks fields fault) :
    Settled fields (ofFields fields) := by
  cases hfind : required.find? fun name => !isGiven (valueAt fields name) with
  | some name =>
    rw [ofFields, hfind]
    exact .missing (firstMissing_of_find? h hfind)
  | none =>
    obtain ⟨uid, panel, range, hgiven⟩ := allGiven_of_find? h hfind
    cases hid : readInt? (trim panel).toList with
    | none =>
      have hpanel : readPanel (.text panel) =
          .error (.failure (.invalidParameter "panel" "expected an integer")) := by
        simp [readPanel, shown_text, hid]
      rw [ofFields_of_allGiven hgiven, hpanel]
      exact .panel hgiven hid
    | some id =>
      rw [ofFields_of_panel hgiven hid, readRange, shown_text]
      cases hrange : TimeRange.ofText range with
      | ok r => exact .params hgiven (isBlankText_trim hgiven.dashboard.2) hid hrange
      | error fault =>
        cases fault with
        | number fault =>
          exact absurd (.number hgiven hid (TimeRange.ofText_eq_number_iff.1 hrange))
            (hbreaks (.number fault))
        | tooDeep =>
          exact absurd (.tooDeep hgiven hid (TimeRange.ofText_eq_tooDeep_iff.1 hrange))
            (hbreaks .tooDeep)
        | _ => exact .timerange hgiven hid hrange

/-- A refusal ends the command as a faulty configuration does. -/
theorem code_of_settled {fault : RunFault} (h : Settled fields (.error fault)) :
    (Ending.ofFault fault).code = 10 := by
  cases h <;> rfl

/-- A range that breaks the reader ends the command as a crash does. -/
theorem code_of_breaks {fault : RunFault} (h : Breaks fields fault) :
    (Ending.ofFault fault).code = 127 := by
  cases h <;> rfl

end Values

end ExportParams

/-! ## Commands -/

namespace Command

/-- The parameters that an invocation gives to a session. -/
def Invocation.parameters? : Invocation → Option Fields
  | .export words => some words.parameters
  | .queries dashboard? panel? => some (queriesParameters dashboard? panel?)
  | .metrics _ => none
  | .serve _ => none

/-- Once the log is set, a command line that gives some parameters ends with a number. -/
def EndsWith (fields : Fields) (code : Int) : Prop :=
  ∀ (line : CommandLine) (invocation : Invocation) (level : String) (w : Surroundings),
    line.invocation? = some invocation → invocation.parameters? = some fields →
    logLevelOf line w = .ok level →
    ∃ finish, runLine line w = .ok ⟨some level, finish⟩ ∧ finish.code = code

section Faults

variable {fields : Fields} {fault : RunFault}

theorem openSession_of_fault (h : ExportParams.ofFields fields = .error fault) (w : Surroundings) :
    openSession fields w = .error (.ofFault fault) := by
  rw [openSession, h]
  rfl

/-- Nothing is done for parameters that cannot be used but to tell why. -/
theorem perform_of_fault {invocation : Invocation} (hgives : invocation.parameters? = some fields)
    (h : ExportParams.ofFields fields = .error fault) (w : Surroundings) :
    perform invocation w = .ok (finishCourse ⟨[], [], [], .error (.ofFault fault)⟩ w.files) := by
  have hopened : ∀ k : Session × Server → Course Completion,
      (Course.ofExcept id (openSession fields w) >>= k) =
        ⟨[], [], [], .error (.ofFault fault)⟩ := by
    intro k
    rw [openSession_of_fault h]
    exact Course.bind_error rfl k
  cases invocation with
  | «export» words =>
    cases hgives
    rw [perform, exportCourse, hopened]
  | queries dashboard? panel? =>
    cases hgives
    rw [perform, queriesCourse, hopened]
  | metrics exprs => cases hgives
  | serve endpoint => cases hgives

/-- A fault of the parameters ends every command that needs them. -/
theorem endsWith_of_fault (h : ExportParams.ofFields fields = .error fault) :
    EndsWith fields (Ending.ofFault fault).code := by
  intro line invocation level w hline hgives hlevel
  refine ⟨finishCourse ⟨[], [], [], .error (.ofFault fault)⟩ w.files, ?_, rfl⟩
  rw [runLine, hlevel, hline]
  simp only [perform_of_fault hgives h]
  rfl

end Faults

/-- Parameters that are settled are accepted, or they end the command. -/
theorem endsWith_of_settled {fields : Fields}
    (h : ExportParams.Settled fields (ExportParams.ofFields fields)) :
    (∃ params, ExportParams.ofFields fields = .ok params) ∨ EndsWith fields 10 := by
  cases hfields : ExportParams.ofFields fields with
  | ok params => exact .inl ⟨params, rfl⟩
  | error fault =>
    rw [hfields] at h
    rw [← ExportParams.code_of_settled h]
    exact .inr (endsWith_of_fault hfields)

/-- The words of a command line are in reach: they are texts, or were left out. -/
theorem textual_parameters (words : ExportWords) : ExportParams.Textual words.parameters := by
  have htext : ∀ text?, ofText? text? = .null ∨ ∃ s, ofText? text? = .text s := by
    rintro (- | s)
    · exact .inl rfl
    · exact .inr ⟨s, rfl⟩
  intro name hname d hd
  simp only [ExportParams.required, List.mem_cons, List.not_mem_nil, or_false] at hname
  rcases hname with rfl | rfl | rfl
  · cases hd
    exact htext words.dashboard?
  · cases hd
    exact htext words.panel?
  · cases hd
    exact htext words.timeRange?

/-- The time range for showing queries is read. -/
theorem not_breaks_queriesParameters (dashboard? panel? : Option String) (fault : RunFault) :
    ¬ ExportParams.Breaks (queriesParameters dashboard? panel?) fault := by
  have hread : ∀ {range : String},
      ExportParams.Given (queriesParameters dashboard? panel?) "timerange" range →
      (TimeRange.ofText range).toOption = some ⟨"now-1h", "now"⟩ := by
    intro range hrange
    obtain rfl := Document.text.inj (Option.some.inj hrange.1)
    decide +kernel
  intro h
  cases h with
  | tooDeep hgiven _ hdeep =>
    have hrange := hread hgiven.timerange
    rw [TimeRange.ofText_eq_tooDeep_iff.2 hdeep] at hrange
    cases hrange
  | number hgiven _ hbreaks =>
    have hrange := hread hgiven.timerange
    rw [TimeRange.ofText_eq_number_iff.2 hbreaks] at hrange
    cases hrange

/-- A command that shows queries has no exception: its parameters are used, or it ends with the code
for configuration. -/
theorem queriesParameters_settled (dashboard? panel? : Option String) :
    let fields := queriesParameters dashboard? panel?
    ExportParams.Settled fields (ExportParams.ofFields fields) ∧
      ((∃ params, ExportParams.ofFields fields = .ok params) ∨ EndsWith fields 10) := by
  have htextual : ExportParams.Textual (queriesParameters dashboard? panel?) :=
    textual_parameters ⟨dashboard?, panel?, some _, none, none⟩
  have hsettled := ExportParams.settled_of_not_breaks htextual
    (not_breaks_queriesParameters dashboard? panel?)
  exact ⟨hsettled, endsWith_of_settled hsettled⟩

end Command

namespace ExportParams

/-- Parameters that are absent, nothing or texts come to what they give, or to a failure that names
the first that is to blame, and then a command line that gives them ends with the code for
configuration. The exceptions are time ranges that are nested too deeply to be read, or whose first
bound that is none is not-a-number or infinite. -/
theorem ofFields_settled {fields : Fields} (h : Textual fields) :
    ((∀ fault, ¬ Breaks fields fault) →
      Settled fields (ofFields fields) ∧
        ((∃ params, ofFields fields = .ok params) ∨ Command.EndsWith fields 10)) ∧
    ∀ fault, Breaks fields fault →
      ofFields fields = .error fault ∧ Command.EndsWith fields 127 := by
  refine ⟨fun hbreaks => ?_, fun fault hbreaks => ?_⟩
  · have hsettled := settled_of_not_breaks h hbreaks
    exact ⟨hsettled, Command.endsWith_of_settled hsettled⟩
  · have hfault := ofFields_of_breaks hbreaks
    rw [← code_of_breaks hbreaks]
    exact ⟨hfault, Command.endsWith_of_fault hfault⟩

/-- A blank panel, and no time range. -/
def blankPanel : Fields :=
  [("dashboard", .text "board"), ("panel", .text " "), ("timerange", .null)]

theorem ofFields_settled_blankPanel :
    Textual blankPanel ∧ Settled blankPanel (ofFields blankPanel) ∧
      ∀ w, ∃ finish, Command.runLine
        ⟨some "INFO", some (.export ⟨some "board", some " ", none, none, none⟩)⟩ w =
          .ok ⟨some "INFO", finish⟩ ∧ finish.code = 10 := by
  have htextual : Textual blankPanel :=
    Command.textual_parameters ⟨some "board", some " ", none, none, none⟩
  have hbreaks : ∀ fault, ¬ Breaks blankPanel fault := by
    have hpanel : ∀ {uid panel range}, ¬ AllGiven blankPanel uid panel range := by
      intro uid panel range hgiven
      obtain ⟨htext, hvisible⟩ := hgiven.panel
      obtain rfl := Document.text.inj (Option.some.inj htext)
      cases hvisible
    rintro _ (⟨hgiven, _, _⟩ | ⟨hgiven, _, _⟩)
    · exact hpanel hgiven
    · exact hpanel hgiven
  obtain ⟨hsettled, hends⟩ := (ofFields_settled htextual).1 hbreaks
  refine ⟨htextual, hsettled, fun w => ?_⟩
  rcases hends with ⟨params, hparams⟩ | hends
  · cases hparams
  · exact hends _ _ _ w rfl rfl rfl

/-- A time range that starts at no number. -/
def notANumberRange : Fields :=
  [("dashboard", .text "board"), ("panel", .text "1"),
    ("timerange", .text "\x7b\"from\": NaN, \"to\": 1\x7d")]

theorem breaks_notANumberRange : Breaks notANumberRange (.number .notANumber) := by
  have hid : readInt? (trim "1").toList = some 1 := by decide +kernel
  have hrange : TimeRange.Breaks "\x7b\"from\": NaN, \"to\": 1\x7d" .notANumber := by
    decide +kernel
  exact .number ⟨⟨rfl, by decide +kernel⟩, ⟨rfl, by decide +kernel⟩, ⟨rfl, by decide +kernel⟩⟩ hid
    hrange

/-- Parameters that come to no failure, and a command line that ends with another code. -/
theorem ofFields_unsettled :
    Textual notANumberRange ∧ ¬ Settled notANumberRange (ofFields notANumberRange) ∧
      ∀ w, ∃ finish, Command.runLine
        ⟨some "INFO", some (.export ⟨some "board", some "1",
          some "\x7b\"from\": NaN, \"to\": 1\x7d", none, none⟩)⟩ w =
          .ok ⟨some "INFO", finish⟩ ∧ finish.code = 127 := by
  have hfault := ofFields_of_breaks breaks_notANumberRange
  refine ⟨?_, ?_, fun w => ?_⟩
  · exact Command.textual_parameters ⟨some "board", some "1", some _, none, none⟩
  · rw [hfault]
    exact nofun
  · exact Command.endsWith_of_fault hfault _ _ _ w rfl rfl rfl

end ExportParams

end PanelExport
