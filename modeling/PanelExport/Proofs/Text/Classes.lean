import PanelExport.Proofs.Numeral
import PanelExport.Text.CharClass
import PanelExport.Text.Word

/-!
# Classes of characters side by side

A class is a row of runs of code points. One class is part of another if each of its runs lies in a
run of the other, and the characters outside a class are a class themselves.

* `CharClass.contains_of_hasRun`: what lies in a run of a class is in the class.
* `CharClass.contains_of_runs`: a class whose runs lie in runs of another is part of it.
* `isWord_of_isDecimalDigit`, `isWord_of_isBlank`: digits are word characters and blanks are not.
-/

namespace PanelExport

namespace CharClass

/-- The runs of code points of a class, each with its first one and the first one behind it. -/
def runs : List Nat → List (Nat × Nat)
  | lo :: hi :: changes => (lo, hi) :: runs changes
  | _ => []

/-- The code points from `lo` up to `hi` lie in a run of the class. -/
def hasRun (lo hi : Nat) : List Nat → Bool
  | first :: last :: changes =>
    first.ble lo && (hi.ble last || (last.ble lo && hasRun lo hi changes))
  | _ => false

theorem contains_of_hasRun {k : CharClass} {lo hi : Nat} (h : hasRun lo hi k.changes = true)
    {c : Char} (hlo : lo ≤ c.toNat) (hhi : c.toNat < hi) : k.contains c = true := by
  obtain ⟨changes⟩ := k
  suffices hodd : (changes.takeWhile (· ≤ c.toNat)).length % 2 = 1 by simpa [contains] using hodd
  induction changes using hasRun.induct with
  | case1 first last changes ih =>
    simp only [hasRun, Bool.and_eq_true, Bool.or_eq_true, Nat.ble_eq] at h
    obtain ⟨hfirst, hlast | ⟨hlast, hrun⟩⟩ := h
    · have hin : first ≤ c.toNat := by omega
      have hout : ¬ last ≤ c.toNat := by omega
      simp [hin, hout]
    · have hin : first ≤ c.toNat := by omega
      have hout : last ≤ c.toNat := by omega
      have := ih hrun
      simp only [List.takeWhile_cons, hin, hout, decide_true, if_true, List.length_cons]
      omega
  | case2 changes hne => simp [hasRun] at h

/-- A character of a class without an open end is in one of its runs. -/
theorem exists_run {k : CharClass} (heven : k.changes.length % 2 = 0) {c : Char}
    (h : k.contains c = true) : ∃ run ∈ runs k.changes, run.1 ≤ c.toNat ∧ c.toNat < run.2 := by
  obtain ⟨changes⟩ := k
  replace h : (changes.takeWhile (· ≤ c.toNat)).length % 2 = 1 := by simpa [contains] using h
  induction changes using runs.induct with
  | case1 lo hi changes ih =>
    simp only [List.length_cons] at heven
    by_cases hlo : lo ≤ c.toNat
    · by_cases hhi : hi ≤ c.toNat
      · simp only [List.takeWhile_cons, hlo, hhi, decide_true, if_true, List.length_cons] at h
        obtain ⟨run, hrun, hin⟩ := ih (by simp only; omega) (by omega)
        exact ⟨run, List.mem_cons_of_mem _ hrun, hin⟩
      · exact ⟨(lo, hi), List.mem_cons_self .., hlo, Nat.lt_of_not_le hhi⟩
    · simp [hlo] at h
  | case2 changes hne =>
    rcases changes with _ | ⟨lo, _ | ⟨hi, rest⟩⟩
    · simp at h
    · simp at heven
    · exact absurd rfl (hne lo hi rest)

/-- A class whose runs lie in runs of another is part of it. -/
theorem contains_of_runs {k l : CharClass} (heven : k.changes.length % 2 = 0)
    (h : ∀ run ∈ runs k.changes, hasRun run.1 run.2 l.changes = true) {c : Char}
    (hc : k.contains c = true) : l.contains c = true := by
  obtain ⟨run, hrun, hlo, hhi⟩ := exists_run heven hc
  exact contains_of_hasRun (h run hrun) hlo hhi

/-- One more change in front of the others turns a class inside out. -/
theorem contains_zero (changes : List Nat) (c : Char) :
    contains ⟨0 :: changes⟩ c = !contains ⟨changes⟩ c := by
  simp only [contains, List.takeWhile_cons, Nat.zero_le, decide_true, if_true, List.length_cons]
  rcases Nat.mod_two_eq_zero_or_one (changes.takeWhile (· ≤ c.toNat)).length with h | h <;>
    simp [Nat.add_mod, h]

end CharClass

theorem isWord_of_isBlank {c : Char} (h : isBlank c = true) : isWord c = false := by
  have hruns : ∀ run ∈ CharClass.runs blankChars.changes,
      CharClass.hasRun run.1 run.2 (0 :: wordChars.changes) = true := by
    decide +kernel
  have houtside := CharClass.contains_of_runs (l := ⟨0 :: wordChars.changes⟩) (by decide) hruns h
  rw [CharClass.contains_zero] at houtside
  exact Bool.not_eq_true' _ ▸ houtside

theorem isWord_of_isDecimalDigit {c : Char} (h : isDecimalDigit c = true) : isWord c = true := by
  obtain ⟨d, hd⟩ := Option.isSome_iff_exists.1 h
  obtain ⟨z, hz, -⟩ := Option.map_eq_some_iff.1 hd
  have hrange : z ≤ c.toNat ∧ c.toNat < z + 10 := by simpa using List.find?_some hz
  have hruns : ∀ z ∈ decimalZeros, CharClass.hasRun z (z + 10) wordChars.changes = true := by
    decide +kernel
  exact CharClass.contains_of_hasRun (hruns z (List.mem_of_find?_eq_some hz)) hrange.1 hrange.2

theorem isWord_of_isAlphanum {c : Char} (h : c.isAlphanum = true) : isWord c = true := by
  have hruns : ∀ run ∈ [(65, 91), (97, 123), (48, 58)],
      CharClass.hasRun run.1 run.2 wordChars.changes = true := by
    decide +kernel
  rcases isAlphanum_iff.1 h with (⟨hlo, hhi⟩ | ⟨hlo, hhi⟩) | ⟨hlo, hhi⟩
  · exact CharClass.contains_of_hasRun (hruns (65, 91) (by decide)) hlo (Nat.lt_succ_of_le hhi)
  · exact CharClass.contains_of_hasRun (hruns (97, 123) (by decide)) hlo (Nat.lt_succ_of_le hhi)
  · exact CharClass.contains_of_hasRun (hruns (48, 58) (by decide)) hlo (Nat.lt_succ_of_le hhi)

end PanelExport
