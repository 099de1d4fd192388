import Mathlib.Data.List.Induction
import PanelExport.Proofs.Session.Steps

/-!
# One export at a time

The busy mark of a session says that an export is on its way. It is set when an export is let in and
cleared when that export ends, in whichever way, while loads and refused exports leave it alone. So
there is never more than one export on its way, and with it never more than one batch whose results
are awaited.

* `Turn.busy`: what the step of a call does to the busy mark.
* `Turn.exclusive`, `run_exclusive`: the busy mark stands for the one export that is on its way.
* `run_allowance`: a call sends no second batch.
* `single_flight`: exports of a session do not overlap.
-/

namespace PanelExport

/-- An export waits like this, not a load. -/
def Waiting.IsExport : Waiting → Prop
  | .load => False
  | .panel _ | .results _ _ => True

/-- The call of a step is an export that goes on. -/
def Step.Exports (step : Step) : Prop :=
  ∃ w, step.next = .waits w ∧ w.IsExport

theorem Step.exports_iff {step : Step} :
    step.Exports ↔ ∃ w, step.call = .waits w ∧ w.IsExport := by
  unfold Exports call
  cases step.next <;> simp

/-- The call with a number has sent a batch. -/
def Effect.sendsBatch (number : Nat) : Effect → Bool
  | ⟨some call, some (.results _), _, _⟩ => call == number
  | _ => false

/-- How many batches a call may still send that stands like this, or has not been started. -/
def Call.allowance : Option Call → Nat
  | none => 1
  | some (.waits (.panel _)) => 1
  | some _ => 0

/-! ## The busy mark -/

namespace Session

variable {s : Session} {panel : Panel} {options : ExportOptions}
  {reply : Except CallFault Document} {step : Step}

theorem not_exports_endExport (s : Session) (events : List Event) (outcome : Outcome) :
    ¬ (s.endExport events outcome).Exports :=
  fun ⟨_, h, _⟩ => nomatch h

theorem Sent.busy (h : s.Sent panel options step) (hs : s.busy = true) :
    step.session.busy = true ↔ step.Exports := by
  cases h with
  | ended _ => exact iff_of_false nofun (not_exports_endExport _ _ _)
  | waits _ _ => exact iff_of_true hs ⟨_, rfl, trivial⟩

theorem Resumed.busy (h : s.Resumed options reply step) (hs : s.busy = true) :
    step.session.busy = true ↔ step.Exports := by
  cases h with
  | ended _ => exact iff_of_false nofun (not_exports_endExport _ _ _)
  | sent _ _ sent => exact sent.busy hs

theorem Finished.busy {batch : Batch} (h : s.Finished batch step) :
    step.session.busy = true ↔ step.Exports := by
  cases h <;> exact iff_of_false nofun (not_exports_endExport _ _ _)

theorem Returned.busy (h : s.Returned reply step) :
    step.session.busy = s.busy ∧ ¬ step.Exports := by
  cases h <;> exact ⟨rfl, nofun⟩

end Session

namespace Exchange

variable {x : Exchange} {stimulus : Stimulus} {number : Nat} {step : Step}

/-- The call with a number is an export that has neither returned nor failed. -/
def Exports (x : Exchange) (number : Nat) : Prop :=
  ∃ w, x.calls[number]? = some (.waits w) ∧ w.IsExport

/-- The call with a number has neither returned nor failed. -/
def Pending (x : Exchange) (number : Nat) : Prop :=
  ∃ w, x.calls[number]? = some (.waits w)

/-- The call with a number waits for the results of its batch. -/
def AwaitsResults (x : Exchange) (number : Nat) : Prop :=
  ∃ options batch, x.calls[number]? = some (.waits (.results options batch))

/-- The session is open, and no export is on its way. -/
def LetsIn (x : Exchange) : Prop :=
  x.session.cancelled = false ∧ x.session.busy = false

/-- The call with a number is an export that was let in, at some point of the course. -/
def Admits (x : Exchange) (course : List Stimulus) (number : Nat) : Prop :=
  ∃ before options after, course = before ++ .export options :: after ∧
    (x.run before).1.calls.length = number ∧ (x.run before).1.LetsIn

/-- The busy mark stands for the one export that is on its way. -/
structure Exclusive (x : Exchange) : Prop where
  busy_iff : x.session.busy = true ↔ ∃ n, x.Exports n
  unique : ∀ m n, x.Exports m → x.Exports n → m = n

theorem AwaitsResults.exports {n : Nat} (h : x.AwaitsResults n) : x.Exports n :=
  have ⟨_, _, h⟩ := h
  ⟨_, h, trivial⟩

theorem Stepped.exports_iff {y : Exchange} {effect : Effect}
    (h : x.Stepped number step y effect) {n : Nat} :
    y.Exports n ↔ (n = number ∧ step.Exports) ∨ (n ≠ number ∧ x.Exports n) := by
  by_cases hn : n = number
  · subst hn
    simp [Exports, h.call, Step.exports_iff]
  · simp [Exports, h.others n hn, hn]

/-- A call leaves the busy mark alone if it is no export or is refused. Otherwise it is an export
that was on its way or is let in now, and the mark says whether it goes on. -/
theorem Turn.busy (h : x.Turn stimulus number step) (hx : x.Exclusive) :
    (¬ x.Exports number ∧ ¬ step.Exports ∧ step.session.busy = x.session.busy) ∨
      ((x.Exports number ∨ x.session.busy = false) ∧
        (step.session.busy = true ↔ step.Exports)) := by
  have new : ¬ x.Exports x.calls.length := by simp [Exports]
  cases h with
  | load => exact .inl ⟨new, fun ⟨_, h, hw⟩ => by cases h; exact hw, rfl⟩
  | «export» options =>
    have hstep := x.session.startExport_started options
    generalize x.session.startExport options = step at hstep
    cases hstep with
    | refused _ => exact .inl ⟨new, nofun, rfl⟩
    | asked _ idle _ => exact .inr ⟨.inr idle, iff_of_true rfl ⟨_, rfl, trivial⟩⟩
    | sent _ idle _ sent => exact .inr ⟨.inr idle, sent.busy rfl⟩
  | @reply _ w reply waits =>
    cases w with
    | load =>
      obtain ⟨hbusy, hexports⟩ := (x.session.resumeLoad_returned reply).busy
      refine .inl ⟨?_, hexports, hbusy⟩
      rintro ⟨w, hw, hexport⟩
      rw [waits] at hw
      cases hw
      exact hexport
    | panel options =>
      have hexports : x.Exports number := ⟨_, waits, trivial⟩
      have hbusy := hx.busy_iff.2 ⟨_, hexports⟩
      exact .inr ⟨.inl hexports, (x.session.resumePanel_resumed options reply).busy hbusy⟩
    | results options batch =>
      have hexports : x.Exports number := ⟨_, waits, trivial⟩
      exact .inr ⟨.inl hexports, (x.session.resumeResults_finished options batch reply).busy⟩

/-- The step of a call keeps the meaning of the busy mark. -/
theorem Turn.exclusive (h : x.Turn stimulus number step) (hx : x.Exclusive) :
    (x.advance stimulus).1.Exclusive := by
  have hs := h.stepped
  rcases h.busy hx with ⟨hbefore, hafter, hbusy⟩ | ⟨hturn, hbusy⟩
  · -- The exports on their way are the same ones as before.
    have hsame : ∀ n, (x.advance stimulus).1.Exports n ↔ x.Exports n := by
      intro n
      rw [hs.exports_iff]
      refine ⟨fun hn => hn.elim (fun hn => absurd hn.2 hafter) And.right, fun hn => .inr ⟨?_, hn⟩⟩
      rintro rfl
      exact hbefore hn
    refine ⟨?_, fun m n hm hn => hx.unique m n ((hsame m).1 hm) ((hsame n).1 hn)⟩
    rw [hs.session, hbusy, hx.busy_iff]
    exact exists_congr fun n => (hsame n).symm
  · -- No other export is on its way, so the one that made the step decides.
    have honly : ∀ n, (x.advance stimulus).1.Exports n ↔ n = number ∧ step.Exports := by
      intro n
      rw [hs.exports_iff]
      refine ⟨fun h => h.elim id fun ⟨hne, hn⟩ => ?_, .inl⟩
      rcases hturn with hnumber | hidle
      · exact absurd (hx.unique n number hn hnumber) hne
      · rw [hx.busy_iff.2 ⟨n, hn⟩] at hidle
        cases hidle
    refine ⟨?_, fun m n hm hn => ((honly m).1 hm).1.trans ((honly n).1 hn).1.symm⟩
    rw [hs.session, hbusy]
    exact ⟨fun h => ⟨number, (honly number).2 ⟨rfl, h⟩⟩, fun ⟨n, hn⟩ => ((honly n).1 hn).2⟩

theorem advance_exclusive (hx : x.Exclusive) (stimulus : Stimulus) :
    (x.advance stimulus).1.Exclusive := by
  rcases x.turn_or_quiet stimulus with ⟨_, _, h⟩ | h | h
  · exact h.exclusive hx
  · rw [h]
    exact hx
  · rw [h]
    exact ⟨hx.busy_iff, hx.unique⟩

theorem create_exclusive (params : ExportParams) (settings : Settings) (files : FileTree) :
    (create params settings files).Exclusive := by
  have hnone : ∀ n, ¬ (create params settings files).Exports n := by simp [create, Exports]
  exact ⟨iff_of_false nofun fun ⟨n, hn⟩ => hnone n hn, fun m _ hm => absurd hm (hnone m)⟩

/-- In every course the busy mark stands for the one export that is on its way. -/
theorem run_exclusive (hx : x.Exclusive) (course : List Stimulus) :
    (x.run course).1.Exclusive :=
  (run_induction (I := Exclusive) (E := fun _ => True)
    (fun _ stimulus h => ⟨advance_exclusive h stimulus, trivial⟩) hx course).1

/-! ## Exports that were let in -/

theorem admits_concat {course : List Stimulus} {n : Nat} :
    x.Admits (course ++ [stimulus]) n ↔ x.Admits course n ∨
      (∃ options, stimulus = .export options) ∧ (x.run course).1.calls.length = n ∧
        (x.run course).1.LetsIn := by
  constructor
  · rintro ⟨before, options, after, hcourse, hn, hin⟩
    rcases List.eq_nil_or_concat after with rfl | ⟨after, last, rfl⟩
    · obtain ⟨rfl, hlast⟩ := List.append_inj' hcourse rfl
      exact .inr ⟨⟨options, List.singleton_inj.1 hlast⟩, hn, hin⟩
    · rw [List.concat_eq_append, ← List.cons_append, ← List.append_assoc] at hcourse
      exact .inl ⟨before, options, after, (List.append_inj' hcourse rfl).1, hn, hin⟩
  · rintro (⟨before, options, after, rfl, hn, hin⟩ | ⟨⟨options, rfl⟩, hn, hin⟩)
    · exact ⟨before, options, after ++ [stimulus], by simp, hn, hin⟩
    · exact ⟨course, options, [], rfl, hn, hin⟩

/-- An export on its way after its first step was let in by that step. -/
theorem letsIn_of_exports {options : ExportOptions}
    (h : (x.session.startExport options).Exports) : x.LetsIn := by
  have hstep := x.session.startExport_started options
  generalize x.session.startExport options = step at hstep h
  cases hstep with
  | refused _ =>
    obtain ⟨_, h, -⟩ := h
    cases h
  | asked opened idle _ => exact ⟨opened, idle⟩
  | sent opened idle _ _ => exact ⟨opened, idle⟩

theorem not_waits_load_startExport (s : Session) (options : ExportOptions) :
    (s.startExport options).call ≠ .waits .load := by
  have hstep := s.startExport_started options
  generalize s.startExport options = step at hstep
  cases hstep with
  | refused _ => nofun
  | asked _ _ _ => nofun
  | sent _ _ _ sent => cases sent <;> nofun

/-- An export that goes on after a step was on its way before, or is let in by the step. -/
theorem Turn.exports (h : x.Turn stimulus number step) (hstep : step.Exports) :
    x.Exports number ∨
      (∃ options, stimulus = .export options) ∧ x.calls.length = number ∧ x.LetsIn := by
  cases h with
  | load =>
    obtain ⟨_, hw, hexport⟩ := hstep
    cases hw
    exact hexport.elim
  | «export» options => exact .inr ⟨⟨options, rfl⟩, rfl, letsIn_of_exports hstep⟩
  | @reply _ w reply waits =>
    obtain ⟨_, hw, -⟩ := hstep
    obtain ⟨_, _, rfl, -⟩ := Session.resume_waits hw
    exact .inl ⟨_, waits, trivial⟩

/-- Only the start of a load makes a call wait for a dashboard. -/
theorem Turn.call_ne_load (h : x.Turn stimulus number step) (hstimulus : stimulus ≠ .load) :
    step.call ≠ .waits .load := by
  cases h with
  | load => exact absurd rfl hstimulus
  | «export» options => exact not_waits_load_startExport _ _
  | reply reply waits =>
    intro hcall
    unfold Step.call at hcall
    split at hcall
    · rename_i hw
      obtain ⟨_, _, -, rfl⟩ := Session.resume_waits hw
      cases hcall
    · cases hcall

/-- The exports on their way were let in, and an export that was let in never stands like a load. -/
theorem run_admits (hx : x.calls = []) (course : List Stimulus) (n : Nat) :
    ((x.run course).1.Exports n → x.Admits course n) ∧
      (x.Admits course n → ∃ call, (x.run course).1.calls[n]? = some call ∧
        call ≠ .waits .load) := by
  induction course using List.reverseRecOn with
  | nil =>
    constructor
    · rintro ⟨_, h, -⟩
      simp [run, hx] at h
    · rintro ⟨before, _, _, h, -⟩
      simp at h
  | append_singleton course stimulus ih =>
    obtain ⟨iho, iha⟩ := ih
    rw [run_concat, admits_concat]
    dsimp only
    rcases (x.run course).1.turn_or_quiet stimulus with ⟨number, step, h⟩ | h | h
    · have hs := h.stepped
      rw [hs.exports_iff]
      constructor
      · rintro (⟨rfl, hstep⟩ | ⟨-, hn⟩)
        · exact (h.exports hstep).imp_left iho
        · exact .inl (iho hn)
      · rintro (hn | ⟨⟨options, rfl⟩, rfl, -⟩)
        · obtain ⟨call, hcall, hload⟩ := iha hn
          by_cases hnumber : n = number
          · subst hnumber
            refine ⟨_, hs.call, h.call_ne_load ?_⟩
            -- A load has a number of its own.
            rintro rfl
            cases h
            simp at hcall
          · exact ⟨call, hs.others n hnumber ▸ hcall, hload⟩
        · have hnew := h.call_ne_load (by simp)
          cases h
          exact ⟨_, hs.call, hnew⟩
    all_goals
      rw [h]
      refine ⟨fun hn => .inl (iho hn), ?_⟩
      rintro (hn | ⟨⟨options, rfl⟩, -, -⟩)
      · exact iha hn
      · exact absurd (congrArg (fun r => r.1.calls.length) h) (by simp [advance, start])

/-! ## Batches -/

/-- A batch that a step sends is one that its call had left to send. -/
theorem Turn.allowance (h : x.Turn stimulus number step) :
    ((step.effect number).sendsBatch number).toNat + Call.allowance (some step.call) ≤
      Call.allowance x.calls[number]? := by
  cases h with
  | load => exact Nat.zero_le _
  | «export» options =>
    rw [List.getElem?_eq_none (Nat.le_refl _)]
    have hstep := x.session.startExport_started options
    generalize x.session.startExport options = step at hstep
    cases hstep with
    | refused _ => exact Nat.zero_le _
    | asked _ _ _ => exact Nat.le_refl _
    | sent _ _ _ sent =>
      cases sent with
      | ended _ => exact Nat.zero_le _
      | waits _ _ =>
        simp [Step.effect, Step.call, Effect.sendsBatch, Call.allowance, Session.request]
  | @reply _ w reply waits =>
    rw [waits]
    cases hnext : (x.session.resume reply w).next with
    | ends outcome => simp [Step.effect, Step.call, hnext, Effect.sendsBatch, Call.allowance]
    | waits w' =>
      obtain ⟨_, _, rfl, rfl⟩ := Session.resume_waits hnext
      simp [Step.effect, Step.call, hnext, Effect.sendsBatch, Call.allowance, Session.request]

theorem sendsBatch_effect_of_ne {n : Nat} (hn : n ≠ number) (step : Step) :
    (step.effect number).sendsBatch n = false := by
  unfold Step.effect Effect.sendsBatch
  cases step.next with
  | ends outcome => rfl
  | waits w =>
    cases w with
    | load => rfl
    | panel options => rfl
    | results options batch => simpa [Session.request] using Ne.symm hn

/-- The batches that a call has sent, with those that it may still send, are one at most. -/
theorem run_allowance (x : Exchange) (course : List Stimulus) (n : Nat) :
    (x.run course).2.countP (·.sendsBatch n) + Call.allowance (x.run course).1.calls[n]? ≤
      Call.allowance x.calls[n]? := by
  induction course using List.reverseRecOn with
  | nil => simp [run]
  | append_singleton course stimulus ih =>
    rw [run_concat, List.countP_append, List.countP_singleton]
    dsimp only
    rcases (x.run course).1.turn_or_quiet stimulus with ⟨number, step, h⟩ | h | h
    · have hs := h.stepped
      rw [hs.effect]
      by_cases hn : n = number
      · subst hn
        have hturn := h.allowance
        rw [hs.call]
        cases hsends : (step.effect n).sendsBatch n <;>
          simp only [hsends, Bool.toNat_true, Bool.toNat_false, if_true, if_false,
            Bool.false_eq_true] at hturn ⊢ <;> omega
      · rw [hs.others n hn, sendsBatch_effect_of_ne hn]
        simpa using ih
    all_goals
      rw [h]
      simpa [Effect.sendsBatch, Effect.none] using ih

theorem allowance_le_one (call? : Option Call) : Call.allowance call? ≤ 1 := by
  unfold Call.allowance
  split <;> decide

/-! ## Refused exports -/

/-- An export that is not let in ends at once, and nothing else changes. -/
theorem advance_refused {options : ExportOptions}
    (h : x.session.cancelled = true ∨ x.session.busy = true) :
    (x.advance (.export options)).1 = { x with calls := x.calls ++ [.ended .nothing] } ∧
      (x.advance (.export options)).2.sent? = none ∧
      (x.advance (.export options)).2.outcome? = some .nothing := by
  have hstep := x.session.startExport_started options
  simp only [advance]
  generalize x.session.startExport options = step at hstep
  cases hstep with
  | refused _ => exact ⟨rfl, rfl, rfl⟩
  | asked opened idle _ => simp [opened, idle] at h
  | sent opened idle _ _ => simp [opened, idle] at h

/-- Exports of a session do not overlap. At most one batch awaits its results. The session is busy
just while an export that was let in has neither returned nor failed, and there is only one such
export then. An export that is started while the session is busy or closed ends at once, sends
nothing and changes nothing. No call sends more than one batch. When no call is left the session is
not busy. -/
theorem single_flight (params : ExportParams) (settings : Settings) (files : FileTree)
    (course : List Stimulus) :
    let x := create params settings files
    let y := (x.run course).1
    (∀ m n, y.AwaitsResults m → y.AwaitsResults n → m = n) ∧
      (y.session.busy = true ↔ ∃ n, x.Admits course n ∧ y.Pending n) ∧
      (∀ m n, x.Admits course m → y.Pending m → x.Admits course n → y.Pending n → m = n) ∧
      (∀ options, y.session.cancelled = true ∨ y.session.busy = true →
        (y.advance (.export options)).1 = { y with calls := y.calls ++ [.ended .nothing] } ∧
          (y.advance (.export options)).2.sent? = none ∧
          (y.advance (.export options)).2.outcome? = some .nothing) ∧
      (∀ n, (x.run course).2.countP (·.sendsBatch n) ≤ 1) ∧
      ((∀ n, ¬ y.Pending n) → y.session.busy = false) := by
  intro x y
  have hy : y.Exclusive := run_exclusive (create_exclusive params settings files) course
  -- The exports on their way are those that were let in and have not ended.
  have hexports : ∀ n, y.Exports n ↔ x.Admits course n ∧ y.Pending n := by
    intro n
    obtain ⟨ho, ha⟩ := run_admits (x := x) rfl course n
    refine ⟨fun h => ⟨ho h, h.imp fun _ h => h.1⟩, fun ⟨hadmits, w, hw⟩ => ?_⟩
    obtain ⟨call, hcall, hload⟩ := ha hadmits
    obtain rfl := Option.some.inj (hcall.symm.trans hw)
    cases w with
    | load => exact absurd rfl hload
    | panel options => exact ⟨_, hw, trivial⟩
    | results options batch => exact ⟨_, hw, trivial⟩
  have hbusy : y.session.busy = true ↔ ∃ n, x.Admits course n ∧ y.Pending n :=
    hy.busy_iff.trans (exists_congr hexports)
  refine ⟨fun m n hm hn => hy.unique m n hm.exports hn.exports, hbusy, ?_, ?_, ?_, ?_⟩
  · intro m n hma hmp hna hnp
    exact hy.unique m n ((hexports m).2 ⟨hma, hmp⟩) ((hexports n).2 ⟨hna, hnp⟩)
  · exact fun options h => advance_refused h
  · intro n
    have h := x.run_allowance course n
    have := allowance_le_one x.calls[n]?
    omega
  · intro hnone
    refine Bool.of_not_eq_true fun h => ?_
    obtain ⟨n, -, hn⟩ := hbusy.1 h
    exact hnone n hn

end Exchange

end PanelExport
