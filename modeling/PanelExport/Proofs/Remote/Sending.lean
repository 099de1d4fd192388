import Mathlib.Data.List.TakeWhile
import PanelExport.Proofs.Document.PageMarks
import PanelExport.Proofs.Outcome
import PanelExport.Session.Timeline

/-!
# Requests that go out

A call is answered only if its request goes out. A request for a dashboard has no body, and of its
headers only the token can hold a character that cannot be sent.

* `exists_sent_of_ok`: a call with a document was sent.
* `failed_unsent_iff`: when a call fails without being sent.
* `dashboardRequest_sendFault?_eq_none_iff`: with a plain token a request for a dashboard can be
  sent.
-/

namespace PanelExport

/-- A text of ASCII characters. -/
def IsPlainText (s : String) : Prop := ∀ c ∈ s.toList, c.toNat < 128

theorem asciiFault?_eq_none_iff {s : String} : asciiFault? s = none ↔ IsPlainText s := by
  simp only [asciiFault?, IsPlainText]
  split
  case h_1 hnil =>
    exact iff_of_true rfl (by simpa using List.dropWhile_eq_nil_iff.1 hnil)
  case h_2 c cs hcons =>
    refine iff_of_false (Option.some_ne_none _) fun h => ?_
    have hnot := List.head?_dropWhile_not (fun c : Char => decide (c.toNat < 128)) s.toList
    rw [hcons] at hnot
    have hmem : c ∈ s.toList := (List.dropWhile_sublist _).subset (hcons ▸ List.mem_cons_self)
    simp [h c hmem] at hnot

namespace Request

variable {r : Request} {reply : Reply}

/-- A call that gives a document was sent. -/
theorem exists_sent_of_ok {d : Document} (h : (r.outcome reply).outcome = .ok d) :
    ∃ sent, r.sent? = some sent := by
  unfold outcome at h
  cases ha : r.address with
  | error fault =>
    rw [ha] at h
    cases h
  | ok a =>
    cases hs : r.sendFault? with
    | some fault =>
      rw [ha, hs] at h
      cases h
    | none => exact ⟨_, by rw [sent?, ha, hs]⟩

/-- A call fails without being sent exactly if it has an address, and something that cannot be
sent. -/
theorem failed_unsent_iff (reply : Reply) :
    (r.sent? = none ∧ ∃ fault, (r.outcome reply).outcome = .error (.failed fault)) ↔
      (∃ a, r.address = .ok a) ∧ r.sendFault? ≠ none := by
  unfold sent? outcome
  cases r.address with
  | error fault => exact ⟨nofun, nofun⟩
  | ok a =>
    cases r.sendFault? with
    | some f => exact ⟨fun _ => ⟨⟨a, rfl⟩, nofun⟩, fun _ => ⟨rfl, _, rfl⟩⟩
    | none => exact ⟨nofun, fun h => absurd rfl h.2⟩

end Request

theorem Server.exists_sent_of_ok {v : Server} {transport : Transport} {call : ServerCall}
    {d : Document} (h : (v.respond transport call).outcome = .ok d) :
    ∃ sent, (v.requestFor call).sent? = some sent := by
  rw [respond] at h
  exact Request.exists_sent_of_ok h

/-! ## Headers -/

theorem isPlainText_agent : IsPlainText Release.agent := by
  rw [← asciiFault?_eq_none_iff]
  decide +kernel

theorem isPlainText_toString (n : Int) : IsPlainText (toString n) := by
  have hall : Document.writtenChars.all (·.toNat < 128) = true := by decide
  exact fun c hc => of_decide_eq_true (List.all_eq_true.1 hall c (Document.mem_toString hc))

theorem isPlainText_append {s t : String} :
    IsPlainText (s ++ t) ↔ IsPlainText s ∧ IsPlainText t := by
  simp only [IsPlainText, String.toList_append, List.mem_append, or_imp, forall_and]

namespace Server

/-- All that can be wrong with a request for a dashboard is the token. -/
theorem dashboardRequest_sendFault?_eq_none_iff {v : Server} {uid : String} :
    (v.dashboardRequest uid).sendFault? = none ↔
      ∀ token, v.token? = some token → IsPlainText token := by
  have hheaders : (v.dashboardRequest uid).sendFault? = none ↔
      ∀ header ∈ v.headers, IsPlainText header.2 := by
    simp [Request.sendFault?, dashboardRequest, asciiFault?_eq_none_iff]
  have hbearer : IsPlainText "Bearer " := by simp [IsPlainText]
  have hjson : IsPlainText "application/json" := by simp [IsPlainText]
  rw [hheaders]
  constructor
  · intro h token htoken
    by_cases hempty : token = ""
    · rw [hempty]
      simp [IsPlainText]
    · have hmem : ("authorization", "Bearer " ++ token) ∈ v.headers := by
        simp [headers, htoken, hempty]
      exact (isPlainText_append.1 (h _ hmem)).2
  · intro h header hheader
    simp only [headers, List.mem_append, List.mem_cons, List.not_mem_nil, or_false, List.mem_map,
      Option.mem_toList, Option.filter_eq_some_iff] at hheader
    rcases hheader with ((rfl | rfl) | ⟨token, ⟨htoken, -⟩, rfl⟩) | ⟨id, -, rfl⟩
    · exact hjson
    · exact isPlainText_agent
    · exact isPlainText_append.2 ⟨hbearer, h token htoken⟩
    · exact isPlainText_toString id

end Server

end PanelExport
