import PanelExport.Exposition.Convert
import PanelExport.Proofs.Outcome

/-!
# The lines of a reply

A reply is read leniently: what is missing or has another shape counts as empty. Here is what that
comes to for the lines, in terms of the reply itself: every frame has the lines that its own schema
and data give it, and the lines of a reply are those of its frames, one frame after the other.

* `length_of_applyEntities`: putting values back keeps the columns and their lengths.
* `Frame.samples_eq_ok_iff`: when a frame has samples, and which.
* `frameLines_linesOf`: the lines of a frame.
* `QueryResult.lines_of_document`: the lines of a reply.
-/

namespace PanelExport

/-! ## Parts of a reply -/

namespace Document

/-- The entries of the object under a name; none where there is no object. -/
def entriesIn (name : String) (d : Document) : Fields :=
  ((d.field? name).bind entries?).getD []

/-- The items of the list under a name; none where there is no list. -/
def itemsIn (name : String) (d : Document) : List Document :=
  ((d.field? name).bind items?).getD []

/-- The descriptions of the columns of a frame. -/
def frameFields (d : Document) : List Document :=
  ((d.field? "schema").map (itemsIn "fields")).getD []

/-- The columns of a frame, as they are sent; what is no list is an empty column. -/
def frameColumns (d : Document) : List (List Document) :=
  (((d.field? "data").map (itemsIn "values")).getD []).map fun column => column.items?.getD []

/-- What a frame lists apart from its columns. -/
def frameEntities (d : Document) : List Document :=
  ((d.field? "data").map (itemsIn "entities")).getD []

/-- The frames of a reply: those of its first group, then those of the next one, and so on. -/
def frames (d : Document) : List Document :=
  (d.entriesIn "results").flatMap fun group => group.2.itemsIn "frames"

end Document

open Document

theorem entriesAt_eq (name : String) (d : Document) :
    Field.entriesAt name (d.entries?.getD []) = d.entriesIn name := by
  cases d <;> rfl

theorem itemsAt_eq (name : String) (d : Document) :
    Frame.itemsAt name (d.entries?.getD []) = d.itemsIn name := by
  cases d <;> rfl

theorem itemsAt_entriesIn (outer inner : String) (d : Document) :
    Frame.itemsAt inner (d.entriesIn outer) = ((d.field? outer).map (itemsIn inner)).getD [] := by
  unfold entriesIn
  cases d.field? outer with
  | none => rfl
  | some e => exact itemsAt_eq inner e

/-! ## Columns -/

/-- Putting values into a column does not change its length. -/
theorem length_of_foldl_replaceAt (value : Document) (positions column : List Document) :
    (positions.foldl (replaceAt value) column).length = column.length := by
  induction positions generalizing column with
  | nil => rfl
  | cons position positions ih => rw [List.foldl_cons, ih, length_replaceAt]

/-- An entity does not change the length of a column. -/
theorem length_of_applyEntity {column restored : List Document} {entity : Document}
    (h : applyEntity column entity = .ok restored) : restored.length = column.length := by
  unfold applyEntity at h
  split at h
  · rename_i entries
    generalize entityValues = values at h
    induction values generalizing column with
    | nil =>
      cases h
      rfl
    | cons value values ih =>
      rw [List.foldlM_cons] at h
      obtain ⟨next, hnext, h⟩ := bind_eq_ok.1 h
      obtain ⟨positions, -, hnext⟩ := bind_eq_ok.1 hnext
      cases hnext
      rw [ih h, length_of_foldl_replaceAt]
  · cases h
    rfl

/-- Putting values back keeps the columns and their lengths. -/
theorem length_of_applyEntities {columns restored : List (List Document)}
    {entities : List Document} (h : applyEntities columns entities = .ok restored) :
    restored.map List.length = columns.map List.length := by
  induction columns generalizing entities restored with
  | nil =>
    rw [applyEntities.eq_def] at h
    cases h
    rfl
  | cons column columns ih =>
    cases entities with
    | nil =>
      cases h
      rfl
    | cons entity entities =>
      obtain ⟨first, hfirst, h⟩ := bind_eq_ok.1 h
      obtain ⟨others, hothers, h⟩ := bind_eq_ok.1 h
      cases h
      rw [List.map_cons, List.map_cons, length_of_applyEntity hfirst, ih hothers]

/-- A column stands where it stood, with as many cells. -/
theorem exists_column_iff {columns restored : List (List Document)} {entities : List Document}
    (h : applyEntities columns entities = .ok restored) {i n : Nat} :
    (∃ c, restored[i]? = some c ∧ c.length = n) ↔ ∃ c, columns[i]? = some c ∧ c.length = n := by
  have hlengths := congrArg (·[i]?) (length_of_applyEntities h)
  simp only [List.getElem?_map] at hlengths
  simp only [← Option.map_eq_some_iff, hlengths]

/-! ## Fields -/

/-- A field is the first one of a type among those of its frame. -/
structure FirstOf (type : String) (fields : List Document) (i : Nat) (field : Document) : Prop where
  here : fields[i]? = some field
  typed : field.field? "type" = some (.text type)
  before : ∀ k < i, ∀ other, fields[k]? = some other → other.field? "type" ≠ some (.text type)

/-- A field has a type just if its document says so. -/
theorem type_ofDocument (d : Document) (type : String) :
    ((Field.ofDocument d).type.text? == some type) = true ↔
      d.field? "type" = some (.text type) := by
  cases d with
  | object entries =>
    rw [field?_object]
    simp only [Field.ofDocument]
    cases entries.lookup "type" with
    | none => simp [text?]
    | some v => cases v <;> simp [text?]
  | _ => simp [Field.ofDocument, field?, text?]

/-- The field that is found for a type is the first one that has it. -/
theorem findIdx?_eq_some_iff_firstOf {fields : List Document} {type : String} {i : Nat} :
    (fields.map Field.ofDocument).findIdx? (fun f => f.type.text? == some type) = some i ↔
      ∃ field, FirstOf type fields i field := by
  rw [List.findIdx?_eq_some_iff_getElem]
  simp only [List.length_map, List.getElem_map, type_ofDocument]
  constructor
  · rintro ⟨hi, htype, hbefore⟩
    refine ⟨fields[i], List.getElem?_eq_getElem hi, htype, fun k hk other hother => ?_⟩
    obtain ⟨-, rfl⟩ := List.getElem?_eq_some_iff.1 hother
    exact hbefore k hk
  · rintro ⟨field, hhere, htype, hbefore⟩
    obtain ⟨hi, rfl⟩ := List.getElem?_eq_some_iff.1 hhere
    exact ⟨hi, htype, fun k hk =>
      hbefore k hk _ (List.getElem?_eq_getElem (Nat.lt_trans hk hi))⟩

/-- The name that a field gives to the metric of its samples: its label for it, or else a name to
show that the data source or the panel gives, or else its own name. -/
inductive NamesMetric (field : Document) : String → Prop where
  | label {v : Document} :
      (field.entriesIn "labels").lookup "__name__" = some v → NamesMetric field v.shown
  | source {v : Document} :
      (field.entriesIn "labels").lookup "__name__" = none →
      (field.entriesIn "config").lookup "displayNameFromDS" = some v → v.isTruthy = true →
      NamesMetric field v.shown
  | panel {v : Document} :
      (field.entriesIn "labels").lookup "__name__" = none →
      (∀ u, (field.entriesIn "config").lookup "displayNameFromDS" = some u → u.isTruthy = false) →
      (field.entriesIn "config").lookup "displayName" = some v → v.isTruthy = true →
      NamesMetric field v.shown
  | own :
      (field.entriesIn "labels").lookup "__name__" = none →
      (∀ u, (field.entriesIn "config").lookup "displayNameFromDS" = some u → u.isTruthy = false) →
      (∀ u, (field.entriesIn "config").lookup "displayName" = some u → u.isTruthy = false) →
      NamesMetric field (Field.textAt "name" (field.entries?.getD []))

theorem ofDocument_labels (d : Document) : (Field.ofDocument d).labels = d.entriesIn "labels" := by
  cases d <;> rfl

theorem ofDocument_config (d : Document) : (Field.ofDocument d).config = d.entriesIn "config" := by
  cases d <;> rfl

theorem ofDocument_name (d : Document) :
    (Field.ofDocument d).name = Field.textAt "name" (d.entries?.getD []) := by
  cases d <;> rfl

/-- The metric of a field is the one that its document names. -/
theorem namesMetric_ofDocument (d : Document) : NamesMetric d (Field.ofDocument d).metric := by
  have hfalse : ∀ {name : String}, ((d.entriesIn "config").lookup name).filter isTruthy = none →
      ∀ u, (d.entriesIn "config").lookup name = some u → u.isTruthy = false := by
    intro name hnone u hu
    rw [hu] at hnone
    simpa using hnone
  simp only [Field.metric, Field.displayName, ofDocument_labels, ofDocument_config, ofDocument_name]
  cases hlabel : (d.entriesIn "labels").lookup metricLabel with
  | some v => exact .label hlabel
  | none =>
    cases hsource : ((d.entriesIn "config").lookup "displayNameFromDS").filter isTruthy with
    | some v =>
      obtain ⟨hv, htrue⟩ := Option.filter_eq_some_iff.1 hsource
      exact .source hlabel hv htrue
    | none =>
      cases hpanel : ((d.entriesIn "config").lookup "displayName").filter isTruthy with
      | some v =>
        obtain ⟨hv, htrue⟩ := Option.filter_eq_some_iff.1 hpanel
        exact .panel hlabel (hfalse hsource) hv htrue
      | none =>
        exact .own hlabel (hfalse hsource) (hfalse hpanel)

/-! ## Frames -/

/-- A frame has a column of times and one of numbers, of one length: those of the first field of
either type. -/
structure Sampled (d : Document) (i j n : Nat) (field : Document) : Prop where
  time : ∃ f, FirstOf "time" d.frameFields i f
  number : FirstOf "number" d.frameFields j field
  times : ∃ c, d.frameColumns[i]? = some c ∧ c.length = n
  numbers : ∃ c, d.frameColumns[j]? = some c ∧ c.length = n

/-- The lines that a frame has: none unless it is sampled, and otherwise one for each row, of the
metric and the labels of the field of the numbers, with the number and the time that stand in that
row after the values that are listed apart were put back. -/
structure LinesOf (d : Document) (lines : List String) : Prop where
  skipped : (¬ ∃ i j n field, Sampled d i j n field) → lines = []
  sampled : ∀ i j n field, Sampled d i j n field → lines.length = n ∧
    ∃ restored times numbers metric,
      applyEntities d.frameColumns d.frameEntities = .ok restored ∧
      restored[i]? = some times ∧ restored[j]? = some numbers ∧
      times.length = n ∧ numbers.length = n ∧ NamesMetric field metric ∧
      ∀ (k : Nat) (time value : Document), times[k]? = some time → numbers[k]? = some value →
        lines[k]? = some (formatLine metric
          ((field.entriesIn "labels").filter (·.1 ≠ "__name__")) value time)

namespace Frame

variable {d : Document} {f : Frame} (h : ofDocument d = .ok f)

include h

/-- A frame has the fields of its document, and the columns with the entities put in. -/
theorem parts_of_ofDocument : f.fields = d.frameFields.map Field.ofDocument ∧
    applyEntities d.frameColumns d.frameEntities = .ok f.values := by
  obtain ⟨restored, hrestored, hf⟩ := bind_eq_ok.1 h
  cases hf
  simp only [entriesAt_eq, itemsAt_entriesIn] at hrestored ⊢
  exact ⟨rfl, hrestored⟩

/-- The same for the fields of a frame. -/
theorem indexOfType?_eq_some_iff {type : String} {i : Nat} :
    f.indexOfType? type = some i ↔ ∃ field, FirstOf type d.frameFields i field := by
  rw [indexOfType?, (parts_of_ofDocument h).1, findIdx?_eq_some_iff_firstOf]

/-- When a frame has samples, and which. -/
theorem samples_eq_ok_iff {s : Samples} :
    f.samples = .ok s ↔ ∃ i j field, Sampled d i j s.times.length field ∧
      f.values[i]? = some s.times ∧ f.values[j]? = some s.numbers ∧
      s.numbers.length = s.times.length ∧ s.field = Field.ofDocument field := by
  obtain ⟨hfields, hvalues⟩ := parts_of_ofDocument h
  have hfield : ∀ {j : Nat} {field : Document}, FirstOf "number" d.frameFields j field →
      f.fields[j]?.getD (Field.ofDocument .null) = Field.ofDocument field := by
    intro j field hfirst
    rw [hfields, List.getElem?_map, hfirst.here]
    rfl
  unfold samples
  constructor
  · intro hs
    split at hs
    · rename_i i j hi hj
      obtain ⟨field, hnumber⟩ := (indexOfType?_eq_some_iff h).1 hj
      split at hs
      · rename_i times numbers htimes hnumbers
        split at hs
        · rename_i hlength
          cases hs
          exact ⟨i, j, field,
            ⟨(indexOfType?_eq_some_iff h).1 hi, hnumber,
              (exists_column_iff hvalues).1 ⟨times, htimes, rfl⟩,
              (exists_column_iff hvalues).1 ⟨numbers, hnumbers, hlength.symm⟩⟩,
            htimes, hnumbers, hlength.symm, hfield hnumber⟩
        · cases hs
      · cases hs
    · cases hs
  · rintro ⟨i, j, field, hsampled, htimes, hnumbers, hlength, hs⟩
    rw [(indexOfType?_eq_some_iff h).2 hsampled.time,
      (indexOfType?_eq_some_iff h).2 ⟨field, hsampled.number⟩]
    simp only [htimes, hnumbers, hlength, if_true, hfield hsampled.number, ← hs]

/-- The lines of a frame are those that its own schema and data give it. -/
theorem lines_linesOf : LinesOf d f.lines := by
  obtain ⟨-, hvalues⟩ := parts_of_ofDocument h
  refine ⟨fun hnone => ?_, fun i j n field hsampled => ?_⟩
  · cases hs : f.samples with
    | error reason => exact lines_of_skipped hs
    | ok s =>
      obtain ⟨i, j, field, hsampled, -⟩ := (samples_eq_ok_iff h).1 hs
      exact absurd ⟨i, j, _, field, hsampled⟩ hnone
  · obtain ⟨times, htimes, rfl⟩ := (exists_column_iff hvalues).2 hsampled.times
    obtain ⟨numbers, hnumbers, hlength⟩ := (exists_column_iff hvalues).2 hsampled.numbers
    have hs : f.samples = .ok ⟨Field.ofDocument field, times, numbers⟩ :=
      (samples_eq_ok_iff h).2 ⟨i, j, field, hsampled, htimes, hnumbers, hlength, rfl⟩
    simp only [lines, hs]
    refine ⟨by simp [hlength], f.values, times, numbers, (Field.ofDocument field).metric, hvalues,
      htimes, hnumbers, rfl, hlength, namesMetric_ofDocument field, fun k time value ht hv => ?_⟩
    rw [List.getElem?_zipWith, ht, hv]
    simp only [Field.sampleLabels, ofDocument_labels]
    rfl

end Frame

/-! ## Replies -/

/-- The lines of a frame that is sent. -/
def frameLines (d : Document) : List String :=
  match Frame.ofDocument d with
  | .ok f => f.lines
  | .error _ => []

/-- A frame that can be read gives the lines of its document. -/
theorem frameLines_linesOf {d : Document} {f : Frame} (h : Frame.ofDocument d = .ok f) :
    LinesOf d (frameLines d) := by
  rw [frameLines, h]
  exact Frame.lines_linesOf h

/-- The frames of a group are read from its document one by one. -/
theorem Group.frames_ofDocument {refId : String} {d : Document} {g : Group}
    (h : Group.ofDocument refId d = .ok g) :
    (d.itemsIn "frames").mapM Frame.ofDocument = .ok g.frames := by
  obtain ⟨frames, hframes, h⟩ := bind_eq_ok.1 h
  cases h
  rwa [itemsAt_eq] at hframes

/-- Where a result can be read, all of its frames can. -/
theorem exists_of_mem_frames {r d : Document} {result : QueryResult}
    (h : QueryResult.ofDocument r = .ok result) (hd : d ∈ r.frames) :
    ∃ f, Frame.ofDocument d = .ok f := by
  obtain ⟨groups, hgroups, -⟩ := bind_eq_ok.1 h
  rw [entriesAt_eq] at hgroups
  obtain ⟨entry, hentry, hd⟩ := List.mem_flatMap.1 hd
  obtain ⟨g, hg⟩ := exists_of_mapM hgroups hentry
  exact exists_of_mapM (Group.frames_ofDocument hg) hd

/-- The lines of a result are those of its frames, one behind the other. -/
theorem lines_eq_flatMap {r : Document} {result : QueryResult}
    (h : QueryResult.ofDocument r = .ok result) : result.lines = r.frames.flatMap frameLines := by
  obtain ⟨groups, hgroups, h⟩ := bind_eq_ok.1 h
  cases h
  rw [entriesAt_eq] at hgroups
  rw [frames, List.flatMap_assoc]
  refine flatMap_of_mapM hgroups fun entry g hg => ?_
  refine (flatMap_of_mapM (Group.frames_ofDocument hg) fun d f hf => ?_).symm
  rw [frameLines, hf]

/-- The lines of a reply are those of its frames, in the order in which the frames are sent, and
every frame has the lines that its own schema and data give it. So a frame without samples leaves
the lines of the others as they are. -/
theorem QueryResult.lines_of_document {r : Document} {result : QueryResult}
    (h : QueryResult.ofDocument r = .ok result) :
    result.lines = r.frames.flatMap frameLines ∧
      (∀ d ∈ r.frames, LinesOf d (frameLines d)) ∧
      ∀ (before after : List Document) (d : Document), r.frames = before ++ d :: after →
        result.lines = before.flatMap frameLines ++ (frameLines d ++ after.flatMap frameLines) ∧
        ((¬ ∃ i j n field, Sampled d i j n field) →
          result.lines = before.flatMap frameLines ++ after.flatMap frameLines) := by
  have hlines := lines_eq_flatMap h
  have hof : ∀ d ∈ r.frames, LinesOf d (frameLines d) := fun d hd =>
    have ⟨_, hf⟩ := exists_of_mem_frames h hd
    frameLines_linesOf hf
  refine ⟨hlines, hof, fun before after d hframes => ?_⟩
  have hsplit : result.lines =
      before.flatMap frameLines ++ (frameLines d ++ after.flatMap frameLines) := by
    rw [hlines, hframes, List.flatMap_append, List.flatMap_cons]
  refine ⟨hsplit, fun hnone => ?_⟩
  rw [hsplit, (hof d (hframes ▸ by simp)).skipped hnone, List.nil_append]

/-- A frame with an unusable description before those of its times and numbers, and an infinity that
is listed apart. -/
def restoredFrame : Document := .object
  [("schema", .object [("fields", .list
      [.text "junk", .object [("type", .text "time")],
        .object [("type", .text "number"),
          ("labels", .object [("__name__", .text "up"), ("job", .text "api")])]])]),
    ("data", .object
      [("values", .list [.null, .list [.int 1000, .int 2000], .list [.null, .int 7]]),
        ("entities", .list [.null, .null, .object [("Inf", .list [.int 0])]])])]

/-- A reply in which a frame that is no object stands before one with samples. -/
def restoredReply : Document := .object
  [("results", .object [("A", .object [("frames", .list [.text "junk", restoredFrame])])])]

theorem QueryResult.lines_of_document_restored :
    ∃ result, QueryResult.ofDocument restoredReply = .ok result ∧
      result.lines = frameLines (.text "junk") ++ (frameLines restoredFrame ++ []) ∧
      result.lines = ["up\x7bjob=\"api\"\x7d +Inf 1000", "up\x7bjob=\"api\"\x7d 7 2000"] := by
  obtain ⟨result, hresult⟩ : ∃ result, QueryResult.ofDocument restoredReply = .ok result :=
    exists_of_isOk (by decide +kernel)
  obtain ⟨hlines, -, hsplit⟩ := QueryResult.lines_of_document hresult
  refine ⟨result, hresult, (hsplit [.text "junk"] [] restoredFrame rfl).1, ?_⟩
  rw [hlines]
  decide +kernel

end PanelExport
