import PanelExport.Proofs.Document.Sequences
import PanelExport.Proofs.Result.Lines

/-!
# Replies of any shape

Hardly anything that a reply can hold is in the way of its lines: where another kind of value stands
than is asked for, it counts as empty. There is one exception. Under the words for values that are
listed apart every value is gone through, and some values have no elements.

* `FailsAt`: a computation fails exactly at values of some kind.
* `applyEntities_failsAt`, `Frame.ofDocument_failsAt`, `QueryResult.ofDocument_failsAt`: at which
  values columns, frames and replies fail.
* `QueryResult.read_unless_mislisted`: the replies that are read, and what becomes of the others.
* `QueryResult.lines_lost`: a reply in which one frame costs another one its lines.
-/

namespace PanelExport

open Document

/-! ## Failing at a value -/

/-- A computation fails exactly if there are values of some kind, and it fails at one of them. -/
structure FailsAt {α : Type} (culprits : Document → Prop) (x : Except ShapeFault α) : Prop where
  culprit : ∀ fault, x = .error fault → ∃ v, culprits v ∧ fault = .noItems v
  fails : ∀ v, culprits v → ∃ fault, x = .error fault

namespace FailsAt

variable {α β : Type} {culprits more : Document → Prop} {x : Except ShapeFault α}

theorem ok (a : α) : FailsAt (fun _ => False) (.ok a) := ⟨nofun, nofun⟩

theorem of_iff (h : FailsAt culprits x) (hiff : ∀ v, culprits v ↔ more v) : FailsAt more x := by
  rwa [← funext fun v => propext (hiff v)]

theorem bind (hx : FailsAt culprits x) {f : α → Except ShapeFault β}
    (hf : ∀ a, x = .ok a → FailsAt more (f a)) :
    FailsAt (fun v => culprits v ∨ more v) (x >>= f) := by
  constructor
  · intro fault h
    rcases bind_eq_error.1 h with h | ⟨a, ha, h⟩
    · obtain ⟨v, hv, hfault⟩ := hx.culprit fault h
      exact ⟨v, .inl hv, hfault⟩
    · obtain ⟨v, hv, hfault⟩ := (hf a ha).culprit fault h
      exact ⟨v, .inr hv, hfault⟩
  · rintro v (hv | hv)
    · obtain ⟨fault, h⟩ := hx.fails v hv
      exact ⟨fault, bind_eq_error.2 (.inl h)⟩
    · cases hx' : x with
      | error fault => exact ⟨fault, rfl⟩
      | ok a => exact (hf a hx').fails v hv

/-- What is done last with a value cannot fail. -/
theorem map (hx : FailsAt culprits x) (f : α → β) :
    FailsAt culprits (x >>= fun a => .ok (f a)) :=
  (hx.bind fun a _ => .ok (f a)).of_iff fun _ => or_iff_left id

theorem foldlM {culprits : β → Document → Prop} {f : α → β → Except ShapeFault α}
    (h : ∀ a b, FailsAt (culprits b) (f a b)) (bs : List β) (a : α) :
    FailsAt (fun v => ∃ b ∈ bs, culprits b v) (bs.foldlM f a) := by
  induction bs generalizing a with
  | nil => exact (ok a).of_iff fun v => by simp
  | cons b bs ih =>
    rw [List.foldlM_cons]
    exact ((h a b).bind fun a' _ => ih a').of_iff fun v => by simp

theorem mapM {culprits : α → Document → Prop} {f : α → Except ShapeFault β}
    (h : ∀ a, FailsAt (culprits a) (f a)) (as : List α) :
    FailsAt (fun v => ∃ a ∈ as, culprits a v) (as.mapM f) := by
  induction as with
  | nil => exact (ok []).of_iff fun v => by simp
  | cons a as ih =>
    rw [List.mapM_cons]
    exact ((h a).bind fun b _ => ih.map (b :: ·)).of_iff fun v => by simp

theorem exists_ok_iff (h : FailsAt culprits x) : (∃ a, x = .ok a) ↔ ∀ v, ¬ culprits v := by
  constructor
  · rintro ⟨a, rfl⟩ v hv
    obtain ⟨fault, hfault⟩ := h.fails v hv
    cases hfault
  · intro hnone
    cases x with
    | ok a => exact ⟨a, rfl⟩
    | error fault =>
      obtain ⟨v, hv, -⟩ := h.culprit fault rfl
      exact absurd hv (hnone v)

end FailsAt

/-! ## Values listed apart -/

namespace Document

/-- A value without elements stands in an object under a word for values that are listed apart. -/
def Mislists (entity v : Document) : Prop :=
  ∃ word ∈ ["NaN", "Inf", "NegInf"], entity.field? word = some v ∧ v.Indivisible

/-- A value without elements is listed apart for a column of a frame. -/
def MislistsColumn (frame v : Document) : Prop :=
  ∃ (i : Nat) (column : List Document) (entity : Document),
    frame.frameColumns[i]? = some column ∧ frame.frameEntities[i]? = some entity ∧
      entity.Mislists v

end Document

theorem elements_failsAt (d : Document) : FailsAt (fun v => d = v ∧ d.Indivisible) d.elements := by
  constructor
  · intro fault h
    obtain ⟨hd, hfault⟩ := elements_eq_error_iff.1 h
    exact ⟨d, ⟨rfl, hd⟩, hfault⟩
  · rintro v ⟨rfl, hd⟩
    exact ⟨_, elements_eq_error_iff.2 ⟨hd, rfl⟩⟩

theorem applyEntity_failsAt (column : List Document) (entity : Document) :
    FailsAt entity.Mislists (applyEntity column entity) := by
  unfold applyEntity
  split
  · rename_i fields
    have hentry : ∀ (column : List Document) (entry : String × Double), FailsAt
        (fun v => fields.lookup entry.1 = some v ∧ v.Indivisible)
        (do
          let positions ← ((fields.lookup entry.1).getD .null).elements
          return positions.foldl (replaceAt (.float entry.2)) column) := by
      intro column entry
      refine ((elements_failsAt _).map _).of_iff fun v => ?_
      cases fields.lookup entry.1 with
      | none => exact iff_of_false (fun h => nomatch h.2) nofun
      | some u =>
        rw [Option.getD_some, Option.some.injEq]
        exact and_congr_right fun h => by rw [h]
    refine (FailsAt.foldlM hentry entityValues column).of_iff fun v => ?_
    simp [entityValues, Mislists, field?_object]
  · rename_i hnone
    refine (FailsAt.ok column).of_iff fun v => iff_of_false id ?_
    rintro ⟨word, -, hfield, -⟩
    cases entity with
    | object fields => exact hnone fields rfl
    | _ => cases hfield

/-- Values cannot be put back into their columns exactly if one of them is listed for a column as a
value without elements. -/
theorem applyEntities_failsAt (columns : List (List Document)) (entities : List Document) :
    FailsAt
      (fun v => ∃ (i : Nat) (column : List Document) (entity : Document),
        columns[i]? = some column ∧ entities[i]? = some entity ∧ entity.Mislists v)
      (applyEntities columns entities) := by
  induction columns generalizing entities with
  | nil =>
    rw [applyEntities.eq_def]
    exact (FailsAt.ok _).of_iff fun v => by simp
  | cons column columns ih =>
    cases entities with
    | nil => exact (FailsAt.ok _).of_iff fun v => by simp
    | cons entity entities =>
      refine ((applyEntity_failsAt column entity).bind fun first _ =>
        (ih entities).map (first :: ·)).of_iff fun v => ?_
      constructor
      · rintro (h | ⟨i, column', entity', hcolumn, hentity, h⟩)
        · exact ⟨0, column, entity, rfl, rfl, h⟩
        · exact ⟨i + 1, column', entity', hcolumn, hentity, h⟩
      · rintro ⟨i, column', entity', hcolumn, hentity, h⟩
        cases i with
        | zero =>
          cases hentity
          exact .inl h
        | succ i => exact .inr ⟨i, column', entity', hcolumn, hentity, h⟩

/-! ## Frames and replies -/

theorem Frame.ofDocument_failsAt (d : Document) :
    FailsAt d.MislistsColumn (Frame.ofDocument d) := by
  unfold ofDocument
  simp only [entriesAt_eq, itemsAt_entriesIn]
  exact (applyEntities_failsAt d.frameColumns d.frameEntities).map _

theorem Group.ofDocument_failsAt (refId : String) (d : Document) :
    FailsAt (fun v => ∃ frame ∈ d.itemsIn "frames", frame.MislistsColumn v)
      (Group.ofDocument refId d) := by
  unfold ofDocument
  simp only [itemsAt_eq]
  exact (FailsAt.mapM Frame.ofDocument_failsAt _).map _

theorem QueryResult.ofDocument_failsAt (r : Document) :
    FailsAt (fun v => ∃ frame ∈ r.frames, frame.MislistsColumn v) (QueryResult.ofDocument r) := by
  unfold ofDocument
  simp only [entriesAt_eq]
  have hgroup := fun entry : String × Document => Group.ofDocument_failsAt entry.1 entry.2
  refine ((FailsAt.mapM hgroup _).map _).of_iff fun v => ?_
  simp only [frames, List.mem_flatMap]
  constructor
  · rintro ⟨entry, hentry, frame, hframe, h⟩
    exact ⟨frame, ⟨entry, hentry, hframe⟩, h⟩
  · rintro ⟨frame, ⟨entry, hentry, hframe⟩, h⟩
    exact ⟨entry, hentry, frame, hframe, h⟩

/-- A reply is read whatever it is like, and each of its frames leaves the lines that its own schema
and data give it, unless one frame lists apart for one of its columns a value without elements. Then
the reply comes to nothing, and the fault is that such a value cannot be gone through. -/
theorem QueryResult.read_unless_mislisted (r : Document) :
    ((∃ result, QueryResult.ofDocument r = .ok result ∧
        result.lines = r.frames.flatMap frameLines ∧
        ∀ frame ∈ r.frames, LinesOf frame (frameLines frame)) ↔
      ∀ frame ∈ r.frames, ∀ v, ¬ frame.MislistsColumn v) ∧
    ∀ fault, QueryResult.ofDocument r = .error fault →
      ∃ frame ∈ r.frames, ∃ v, frame.MislistsColumn v ∧ fault = .noItems v := by
  have hr := QueryResult.ofDocument_failsAt r
  constructor
  · have hnone : (∀ frame ∈ r.frames, ∀ v, ¬ frame.MislistsColumn v) ↔
        ∃ result, QueryResult.ofDocument r = .ok result := by
      rw [hr.exists_ok_iff]
      exact ⟨fun h v ⟨frame, hframe, hv⟩ => h frame hframe v hv,
        fun h frame hframe v hv => h v ⟨frame, hframe, hv⟩⟩
    rw [hnone]
    refine exists_congr fun result => and_iff_left_of_imp fun hresult => ?_
    refine ⟨lines_eq_flatMap hresult, fun frame hframe => ?_⟩
    obtain ⟨f, hf⟩ := exists_of_mem_frames hresult hframe
    exact frameLines_linesOf hf
  · intro fault hfault
    obtain ⟨v, ⟨frame, hframe, hv⟩, rfl⟩ := hr.culprit fault hfault
    exact ⟨frame, hframe, v, hv, rfl⟩

/-- A reply of two groups: a frame with a sample, and one that lists apart a number. -/
def mislistedReply : Document := .object
  [("results", .object
    [("A", .object [("frames", .list [.object
        [("schema", .object [("fields", .list
            [.object [("type", .text "time")],
              .object [("name", .text "up"), ("type", .text "number")]])]),
          ("data", .object [("values", .list [.list [.int 1000], .list [.int 7]])])]])]),
      ("B", .object [("frames", .list [.object
        [("data", .object
          [("values", .list [.list [.int 1]]),
            ("entities", .list [.object [("Inf", .int 5)]])])]])])])]

/-- The sample of the first frame is lost with the second one. -/
theorem QueryResult.lines_lost :
    mislistedReply.frames.flatMap frameLines = ["up 7 1000"] ∧
      ¬ ∃ result, QueryResult.ofDocument mislistedReply = .ok result := by
  refine ⟨by decide +kernel, fun h => ?_⟩
  have hfailed : (QueryResult.ofDocument mislistedReply).isOk = false := by decide +kernel
  obtain ⟨result, hresult⟩ := h
  rw [hresult] at hfailed
  cases hfailed

end PanelExport
