import PanelExport.Session.Basic

/-!
# Exchanges

A session under any order of calls and replies. Loads and exports may be started at any time, every
call that waits may get its reply at any time, with any content, and the session may be closed at
any time. What happens between two waits is one step. An exchange keeps every call that was ever
started, by its number.

* `run_append`, `run_concat`: a course of stimuli goes on where an earlier one stopped.
* `run_induction`: what holds of a new exchange and is kept by every step holds of every exchange.
* `turn_or_quiet`, `Turn.stepped`: which call makes a step at a stimulus, and that no other moves.
-/

namespace PanelExport

/-- Where a call stands. -/
inductive Call where
  | waits (waiting : Waiting)
  | ended (outcome : Outcome)

/-- A session and the calls that were started, each at its number. -/
structure Exchange where
  session : Session
  calls : List Call

/-- What happens to a session. -/
inductive Stimulus where
  | load
  | export (options : ExportOptions)
  /-- A call that waits gets its reply. -/
  | reply (call : Nat) (reply : Except CallFault Document)
  | close

/-- What a step shows to the outside. -/
structure Effect where
  /-- The number of the call that made the step. -/
  call? : Option Nat
  /-- What was sent to the server. -/
  sent? : Option ServerCall
  events : List Event
  /-- How the call ended, if it did. -/
  outcome? : Option Outcome

/-- Nothing happened. -/
def Effect.none : Effect := ⟨.none, .none, [], .none⟩

namespace Step

/-- Where the call stands after a step. -/
def call (step : Step) : Call :=
  match step.next with
  | .waits w => .waits w
  | .ends outcome => .ended outcome

/-- What a step of a call shows. -/
def effect (step : Step) (number : Nat) : Effect :=
  match step.next with
  | .waits w => ⟨some number, some (step.session.request w), step.events, none⟩
  | .ends outcome => ⟨some number, none, step.events, some outcome⟩

end Step

namespace Exchange

/-- A new session, and no call yet. -/
def create (params : ExportParams) (settings : Settings) (files : FileTree) : Exchange :=
  ⟨.create params settings files, []⟩

/-- A call was started, and its first step was made. -/
def start (x : Exchange) (step : Step) : Exchange × Effect :=
  (⟨step.session, x.calls ++ [step.call]⟩, step.effect x.calls.length)

/-- What a stimulus does. A reply to a call that does not wait is lost. -/
def advance (x : Exchange) : Stimulus → Exchange × Effect
  | .load => x.start x.session.startLoad
  | .export options => x.start (x.session.startExport options)
  | .reply number reply =>
    match x.calls[number]? with
    | some (.waits w) =>
      let step := x.session.resume reply w
      (⟨step.session, x.calls.set number step.call⟩, step.effect number)
    | _ => (x, .none)
  | .close => ({ x with session := x.session.close }, .none)

/-- What a course of stimuli does, with the effect of each of them. -/
def run (x : Exchange) : List Stimulus → Exchange × List Effect
  | [] => (x, [])
  | stimulus :: stimuli =>
    let (y, effect) := x.advance stimulus
    let (z, effects) := run y stimuli
    (z, effect :: effects)

theorem run_append (x : Exchange) (first second : List Stimulus) :
    x.run (first ++ second) =
      (((x.run first).1.run second).1, (x.run first).2 ++ ((x.run first).1.run second).2) := by
  induction first generalizing x with
  | nil => rfl
  | cons stimulus first ih => simp only [List.cons_append, run, ih]

/-- One more stimulus at the end of a course. -/
theorem run_concat (x : Exchange) (course : List Stimulus) (stimulus : Stimulus) :
    x.run (course ++ [stimulus]) =
      (((x.run course).1.advance stimulus).1,
        (x.run course).2 ++ [((x.run course).1.advance stimulus).2]) := by
  rw [run_append]
  rfl

/-- What one step keeps is kept by a course of stimuli, and what every step shows then, the effects
of the course show. -/
theorem run_induction {I : Exchange → Prop} {E : Effect → Prop}
    (step : ∀ x stimulus, I x → I (x.advance stimulus).1 ∧ E (x.advance stimulus).2)
    {x : Exchange} (h : I x) (stimuli : List Stimulus) :
    I (x.run stimuli).1 ∧ ∀ effect ∈ (x.run stimuli).2, E effect := by
  induction stimuli generalizing x with
  | nil => exact ⟨h, nofun⟩
  | cons stimulus stimuli ih =>
    obtain ⟨hnext, heffect⟩ := step x stimulus h
    obtain ⟨hlast, heffects⟩ := ih hnext
    exact ⟨hlast, List.forall_mem_cons.2 ⟨heffect, heffects⟩⟩

/-- Every effect of a course is that of a stimulus after the part of the course before it. -/
theorem mem_effects {x : Exchange} {course : List Stimulus} {effect : Effect}
    (h : effect ∈ (x.run course).2) : ∃ before stimulus after,
      course = before ++ stimulus :: after ∧ effect = ((x.run before).1.advance stimulus).2 := by
  induction course generalizing x with
  | nil => cases h
  | cons stimulus course ih =>
    rcases List.mem_cons.1 h with rfl | h
    · exact ⟨[], stimulus, course, rfl, rfl⟩
    · obtain ⟨before, next, after, rfl, rfl⟩ := ih h
      exact ⟨stimulus :: before, next, after, rfl, rfl⟩

/-! ## Turns -/

/-- The call that has its turn at a stimulus, by its number, and the step that it makes: a call
starts, behind all others, or a call that waits gets its reply. -/
inductive Turn (x : Exchange) : Stimulus → Nat → Step → Prop where
  | load : x.Turn .load x.calls.length x.session.startLoad
  | «export» (options : ExportOptions) :
      x.Turn (.export options) x.calls.length (x.session.startExport options)
  | reply {number : Nat} {w : Waiting} (reply : Except CallFault Document)
      (waits : x.calls[number]? = some (.waits w)) :
      x.Turn (.reply number reply) number (x.session.resume reply w)

/-- A call has made a step, and all other calls stand where they stood. -/
structure Stepped (x : Exchange) (number : Nat) (step : Step) (y : Exchange) (effect : Effect) :
    Prop where
  session : y.session = step.session
  call : y.calls[number]? = some step.call
  others : ∀ n, n ≠ number → y.calls[n]? = x.calls[n]?
  effect : effect = step.effect number

theorem start_stepped (x : Exchange) (step : Step) :
    x.Stepped x.calls.length step (x.start step).1 (x.start step).2 where
  session := rfl
  call := by simp [start]
  others n hn := by
    rw [start, List.getElem?_append]
    split
    · rfl
    · rename_i h
      rw [List.getElem?_eq_none (Nat.le_of_not_lt h)]
      exact List.getElem?_eq_none (by simp only [List.length_singleton]; omega)
  effect := rfl

/-- The call that has its turn makes its step. -/
theorem Turn.stepped {x : Exchange} {stimulus : Stimulus} {number : Nat} {step : Step}
    (h : x.Turn stimulus number step) :
    x.Stepped number step (x.advance stimulus).1 (x.advance stimulus).2 := by
  cases h with
  | load => exact x.start_stepped _
  | «export» options => exact x.start_stepped _
  | reply reply waits =>
    simp only [advance, waits]
    obtain ⟨hn, -⟩ := List.getElem?_eq_some_iff.1 waits
    exact ⟨rfl, by simp [hn], fun n hn => List.getElem?_set_ne (Ne.symm hn), rfl⟩

/-- At a stimulus a call has its turn, or nothing happens, or the session is closed. -/
theorem turn_or_quiet (x : Exchange) (stimulus : Stimulus) :
    (∃ number step, x.Turn stimulus number step) ∨ x.advance stimulus = (x, .none) ∨
      x.advance stimulus = ({ x with session := x.session.close }, .none) := by
  cases stimulus with
  | load => exact .inl ⟨_, _, .load⟩
  | «export» options => exact .inl ⟨_, _, .export options⟩
  | reply number reply =>
    cases hw : x.calls[number]? with
    | none => exact .inr (.inl (by simp only [advance, hw]))
    | some call =>
      cases call with
      | waits w => exact .inl ⟨_, _, .reply reply hw⟩
      | ended outcome => exact .inr (.inl (by simp only [advance, hw]))
  | close => exact .inr (.inr rfl)

end Exchange

end PanelExport
