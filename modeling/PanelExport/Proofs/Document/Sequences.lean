import PanelExport.Document.Sequence

/-!
# Values without elements

Which values cannot be gone through, and cannot be counted: those that count as present and are
neither lists nor texts nor objects.

* `Document.elements_eq_error_iff`, `Document.exists_elements_iff`: the elements of a value.
* `Document.items_of_elements`: only those of a list can be objects.
* `Document.count_eq_error_iff`, `Document.exists_count_iff`: their number.
-/

namespace PanelExport.Document

/-- A value that counts as present but has no elements: true, or a number other than zero. -/
inductive Indivisible : Document → Prop
  | true : Indivisible (.bool true)
  | int {n : Int} : n ≠ 0 → Indivisible (.int n)
  | float {x : Double} : x.isNonzero = true → Indivisible (.float x)

variable {d : Document} {fault : ShapeFault}

theorem elements_eq_error_iff : d.elements = .error fault ↔ d.Indivisible ∧ fault = .noItems d := by
  unfold elements
  constructor
  · intro h
    split at h
    · cases h
    · rename_i hpresent
      rw [Bool.not_eq_true', Bool.not_eq_false] at hpresent
      cases d with
      | null => cases hpresent
      | bool b =>
        cases h
        cases hpresent
        exact ⟨.true, rfl⟩
      | int n =>
        cases h
        exact ⟨.int (of_decide_eq_true hpresent), rfl⟩
      | float x =>
        cases h
        exact ⟨.float hpresent, rfl⟩
      | _ => cases h
  · rintro ⟨hd, rfl⟩
    cases hd with
    | true => rfl
    | int hn => simp [isTruthy, hn]
    | float hx => simp [isTruthy, hx]

theorem exists_elements_iff : (∃ items, d.elements = .ok items) ↔ ¬ d.Indivisible := by
  cases h : d.elements with
  | ok items =>
    refine iff_of_true ⟨items, rfl⟩ fun hd => ?_
    rw [elements_eq_error_iff.2 ⟨hd, rfl⟩] at h
    cases h
  | error fault => exact iff_of_false nofun (not_not_intro (elements_eq_error_iff.1 h).1)

/-- The elements of a list are its items, and those of all other values are texts. -/
theorem items_of_elements {items : List Document} (h : d.elements = .ok items) :
    d.items? = some items ∨ d.items? = none ∧ ∀ e ∈ items, ∃ s, e = .text s := by
  cases d with
  | list ds => cases ds <;> exact .inl (congrArg some (Except.ok.inj h))
  | _ =>
    refine .inr ⟨rfl, fun e he => ?_⟩
    unfold elements at h
    split at h
    · cases h
      cases he
    -- What is left here are the names of an object and the characters of a text.
    · cases h <;>
        (obtain ⟨_, -, rfl⟩ := List.mem_map.1 he
         exact ⟨_, rfl⟩)

theorem count_eq_error_iff : d.count = .error fault ↔ d.Indivisible ∧ fault = .noLength d := by
  unfold count
  cases h : d.elements with
  | ok items => exact iff_of_false nofun fun hd => exists_elements_iff.1 ⟨items, h⟩ hd.1
  | error fault' =>
    simp only [Except.error.injEq, (elements_eq_error_iff.1 h).1, true_and]
    exact eq_comm

theorem exists_count_iff : (∃ n, d.count = .ok n) ↔ ¬ d.Indivisible := by
  rw [← exists_elements_iff]
  unfold count
  cases d.elements <;> simp

end PanelExport.Document
