import Mathlib.Data.List.TakeWhile
import PanelExport.Proofs.Double.Text
import PanelExport.Proofs.Session.Parameters

/-!
# Bounds in normal form

A bound that was taken for a time range is in its normal form: it is what it comes to when it is
taken again. It is not empty either, unless it was given as a text of nothing but blanks, which is
looked at before the blanks are cut off.

* `trim_trim`, `trim_eq_empty_iff`: what trimming leaves.
* `IsNormalBound`, `normalizeText_normal`: the normal form, and that every text is brought into it.
* `TimeRange.ofFields_settles`: what a time range comes to when it is read again.
* `TimeRange.refused_blankStart`: a time range that is refused when it is read again.
-/

namespace PanelExport

open Document

/-! ## Trimming -/

/-- A text that starts with a visible character, or is empty, has nothing to trim at its start. -/
theorem trimStart_of_head? {cs : List Char} (h : ∀ c ∈ cs.head?, isBlank c = false) :
    trimStart cs = cs := by
  cases cs with
  | nil => rfl
  | cons c cs => exact trimStart_eq_self (h c rfl)

theorem isBlank_head?_trimStart (cs : List Char) :
    ∀ c ∈ (trimStart cs).head?, isBlank c = false := by
  intro c hc
  have h := List.head?_dropWhile_not isBlank cs
  rw [Option.mem_def] at hc
  rw [trimStart] at hc
  rw [hc] at h
  simpa using h

/-- What is trimmed at its end starts as before, unless nothing is left. -/
theorem isBlank_head?_trimEnd {cs : List Char} (h : ∀ c ∈ cs.head?, isBlank c = false) :
    ∀ c ∈ (trimStart cs.reverse).reverse.head?, isBlank c = false := by
  intro c hc
  obtain ⟨front, hfront⟩ := List.dropWhile_suffix isBlank (l := cs.reverse)
  have hcs : (trimStart cs.reverse).reverse ++ front.reverse = cs := by
    rw [← List.reverse_append, trimStart, hfront, List.reverse_reverse]
  refine h c ?_
  rw [← hcs, List.head?_append, Option.mem_def.1 hc]
  rfl

theorem trim_trim (s : String) : trim (trim s) = trim s := by
  have hstart := isBlank_head?_trimEnd (isBlank_head?_trimStart s.toList)
  have hend := isBlank_head?_trimStart (trimStart s.toList).reverse
  rw [trim, trim, String.toList_ofList, trimStart_of_head? hstart, List.reverse_reverse,
    trimStart_of_head? hend]

/-- Nothing is left of a text of blanks, and of no other. -/
theorem trim_eq_empty_iff {s : String} : trim s = "" ↔ isBlankText s = true := by
  constructor
  · intro h
    by_contra hvisible
    obtain ⟨c, hc, -⟩ :=
      isBlankText_eq_false_iff.1 (isBlankText_trim (Bool.not_eq_true _ ▸ hvisible))
    rw [h] at hc
    cases hc
  · intro h
    have hnil : trimStart s.toList = [] := List.dropWhile_eq_nil_iff.2 (List.all_eq_true.1 h)
    rw [trim, hnil]
    rfl

/-! ## Texts of bounds -/

/-- A text of digits and nothing else. -/
def IsDigitText (s : String) : Prop := s.toList ≠ [] ∧ ∀ c ∈ s.toList, isDigit c = true

/-- A text is read as an instant, once its zone letters are spelled out. -/
def instantOf? (s : String) : Option Int := Instant.readInstant? (spellZones s.toList)

theorem isDigitText_iff {s : String} :
    (!s.toList.isEmpty && s.toList.all isDigit) = true ↔ IsDigitText s := by
  simp [IsDigitText]

section

variable {s : String}

theorem normalizeText_of_digits (h : IsDigitText s) : normalizeText s = s :=
  if_pos (isDigitText_iff.2 h)

theorem normalizeText_of_instant {micros : Int} (h : ¬ IsDigitText s)
    (hread : instantOf? s = some micros) : normalizeText s = toString (instantMillis micros) := by
  rw [instantOf?] at hread
  rw [normalizeText, if_neg (mt isDigitText_iff.1 h), hread]

theorem normalizeText_of_other (h : ¬ IsDigitText s) (hread : instantOf? s = none) :
    normalizeText s = s := by
  rw [instantOf?] at hread
  rw [normalizeText, if_neg (mt isDigitText_iff.1 h), hread]

/-- What a text comes to as a bound: itself, or the number of an instant. -/
theorem normalizeText_eq_or (s : String) :
    normalizeText s = s ∨ ∃ n : Int, normalizeText s = toString n := by
  by_cases hdigits : IsDigitText s
  · exact .inl (normalizeText_of_digits hdigits)
  · cases hread : instantOf? s with
    | none => exact .inl (normalizeText_of_other hdigits hread)
    | some micros => exact .inr ⟨_, normalizeText_of_instant hdigits hread⟩

/-- A bound as it is sent: without blanks around it, it is a run of digits, or no instant. -/
structure IsNormalBound (s : String) : Prop where
  trimmed : trim s = s
  settled : IsDigitText s ∨ instantOf? s = none

theorem IsNormalBound.normalizeText_eq (h : IsNormalBound s) : normalizeText s = s := by
  by_cases hdigits : IsDigitText s
  · exact normalizeText_of_digits hdigits
  · exact normalizeText_of_other hdigits (h.settled.resolve_left hdigits)

end

/-! ## Numbers as bounds -/

theorem toList_natText (n : Nat) : (toString n).toList = Nat.toDigits 10 n := by
  rw [Nat.toString_eq_ofList_toDigits, String.toList_ofList]

theorem toList_negText (n : Nat) :
    (toString (Int.negSucc n)).toList = '-' :: Nat.toDigits 10 (n + 1) := by
  have h : toString (Int.negSucc n) = "-" ++ toString (n + 1) := rfl
  rw [h, String.toList_append, toList_natText]
  rfl

theorem isDigitText_natText (n : Nat) : IsDigitText (toString n) := by
  rw [IsDigitText, toList_natText]
  refine ⟨Nat.toDigits_ne_nil, fun c hc => ?_⟩
  have hdigit := isDecimalDigit_of_isDigit (Double.isDigit_of_mem_toDigits c hc)
  rw [isDigit, hdigit, Bool.true_or]

/-- No year starts with a hyphen. -/
theorem readInstant?_hyphen (cs : List Char) : Instant.readInstant? ('-' :: cs) = none := by
  have hdate : ∀ size, Instant.readDate? size ('-' :: cs) = none := by
    intro size
    simp [Instant.readDate?, Instant.takeDigits, Instant.isAsciiDigit]
  simp [Instant.readInstant?, hdate]

theorem isBlank_of_mem_toDigits {n : Nat} {c : Char} (hc : c ∈ Nat.toDigits 10 n) :
    isBlank c = false :=
  isBlank_of_isDecimalDigit (isDecimalDigit_of_isDigit (Double.isDigit_of_mem_toDigits c hc))

/-- Nothing is trimmed of a text without blanks. -/
theorem trim_of_visible {s : String} (h : ∀ c ∈ s.toList, isBlank c = false) : trim s = s := by
  have hstart := trimStart_of_head? fun c hc => h c (List.mem_of_mem_head? hc)
  have hend : trimStart s.toList.reverse = s.toList.reverse :=
    trimStart_of_head? fun c hc => h c (List.mem_reverse.1 (List.mem_of_mem_head? hc))
  rw [trim, hstart, hend, List.reverse_reverse, String.ofList_toList]

theorem isNormalBound_intText (n : Int) : IsNormalBound (toString n) := by
  cases n with
  | ofNat n =>
    refine ⟨trim_of_visible fun c hc => ?_, .inl (isDigitText_natText n)⟩
    rw [show toString (Int.ofNat n) = toString n from rfl, toList_natText] at hc
    exact isBlank_of_mem_toDigits hc
  | negSucc n =>
    refine ⟨trim_of_visible fun c hc => ?_, .inr ?_⟩
    · rw [toList_negText] at hc
      rcases List.mem_cons.1 hc with rfl | hc
      · decide
      · exact isBlank_of_mem_toDigits hc
    · rw [instantOf?, toList_negText, spellZones, List.flatMap_cons]
      exact readInstant?_hyphen _

theorem intText_ne_empty (n : Int) : toString n ≠ "" := by
  intro h
  cases n with
  | ofNat n => exact (isDigitText_natText n).1 (congrArg String.toList h)
  | negSucc n =>
    have := toList_negText n
    rw [h] at this
    cases this

/-! ## Bounds -/

/-- Every text is brought into the normal form of a bound. -/
theorem normalizeText_normal (s : String) : IsNormalBound (normalizeText (trim s)) := by
  by_cases hdigits : IsDigitText (trim s)
  · rw [normalizeText_of_digits hdigits]
    exact ⟨trim_trim s, .inl hdigits⟩
  · cases hread : instantOf? (trim s) with
    | none =>
      rw [normalizeText_of_other hdigits hread]
      exact ⟨trim_trim s, .inr hread⟩
    | some micros =>
      rw [normalizeText_of_instant hdigits hread]
      exact isNormalBound_intText _

theorem normalizeText_eq_empty_iff {s : String} :
    normalizeText (trim s) = "" ↔ isBlankText s = true := by
  rw [← trim_eq_empty_iff]
  constructor
  · intro h
    rcases normalizeText_eq_or (trim s) with heq | ⟨n, hn⟩
    · exact heq.symm.trans h
    · exact absurd (hn.symm.trans h) (intText_ne_empty n)
  · intro h
    rw [h]
    decide +kernel

/-- A bound that was taken is in its normal form. -/
theorem isNormalBound_of_ok {d : Document} {s : String} (h : normalizeBound d = .ok s) :
    IsNormalBound s := by
  rcases normalizeBound_eq_ok_iff.1 ⟨s, h⟩ with n | fits | t
  · cases h
    exact isNormalBound_intText n
  · cases h
    exact isNormalBound_intText _
  · rw [normalizeBound] at h
    exact Except.ok.inj h ▸ normalizeText_normal t

/-- A bound in its normal form is taken as it is. -/
theorem IsNormalBound.normalizeBound_eq {s : String} (h : IsNormalBound s) :
    normalizeBound (.text s) = .ok s := by
  rw [normalizeBound, h.trimmed, h.normalizeText_eq]

/-- A bound that was taken is empty only if it was given as a text of blanks. -/
theorem eq_empty_iff_of_ok {d : Document} {s : String} (h : normalizeBound d = .ok s) :
    s = "" ↔ ∃ t, d = .text t ∧ isBlankText t = true := by
  rcases normalizeBound_eq_ok_iff.1 ⟨s, h⟩ with n | fits | t
  · cases h
    exact iff_of_false (intText_ne_empty n) nofun
  · cases h
    exact iff_of_false (intText_ne_empty _) nofun
  · rw [normalizeBound] at h
    rw [← Except.ok.inj h]
    simp [normalizeText_eq_empty_iff]

namespace TimeRange

/-- A bound is given as a text of nothing but blanks. -/
def BlankAt (fields : Fields) (name : String) : Prop :=
  ∃ s, fields.lookup name = some (.text s) ∧ isBlankText s = true

section

variable {fields : Fields} {r : TimeRange}

/-- A time range has the normal forms of two bounds that were given. -/
theorem exists_bounds (h : ofFields fields = .ok r) : ∃ start finish,
    HasBounds fields start finish ∧ normalizeBound start = .ok r.start ∧
      normalizeBound finish = .ok r.finish := by
  by_cases hbounds : ∃ start finish, HasBounds fields start finish
  · obtain ⟨start, finish, hbounds⟩ := hbounds
    rw [ofFields_of_hasBounds hbounds] at h
    obtain ⟨s, hs, h⟩ := bind_eq_ok.1 h
    obtain ⟨f, hf, h⟩ := bind_eq_ok.1 h
    cases h
    exact ⟨start, finish, hbounds, hs, hf⟩
  · obtain ⟨names, hnames⟩ := ofFields_of_not_hasBounds fun start finish hb =>
      hbounds ⟨start, finish, hb⟩
    cases hnames.symm.trans h

/-- A time range has both of its bounds as fields, if neither is empty. -/
theorem hasBounds_toFields_iff :
    HasBounds r.toFields (.text r.start) (.text r.finish) ↔ r.start ≠ "" ∧ r.finish ≠ "" := by
  constructor
  · intro h
    have hstart := h.start_present
    have hfinish := h.finish_present
    simp only [isBlankValue, beq_eq_false_iff_ne] at hstart hfinish
    exact ⟨hstart, hfinish⟩
  · rintro ⟨hstart, hfinish⟩
    exact ⟨rfl, rfl, by simpa [isBlankValue] using hstart, by simpa [isBlankValue] using hfinish⟩

/-- A time range in normal form is read again as it is. -/
theorem ofFields_toFields (hstart : IsNormalBound r.start) (hfinish : IsNormalBound r.finish)
    (hs : r.start ≠ "") (hf : r.finish ≠ "") : ofFields r.toFields = .ok r := by
  rw [ofFields_of_hasBounds (hasBounds_toFields_iff.2 ⟨hs, hf⟩), hstart.normalizeBound_eq,
    hfinish.normalizeBound_eq]
  rfl

/-- A time range with an empty bound is refused when it is read again. -/
theorem ofFields_toFields_of_empty (h : r.start = "" ∨ r.finish = "") :
    ∃ names, ofFields r.toFields = .error (.missing names) := by
  refine ofFields_of_not_hasBounds fun start finish hbounds => ?_
  obtain rfl := Option.some.inj hbounds.start_eq
  obtain rfl := Option.some.inj hbounds.finish_eq
  obtain ⟨hs, hf⟩ := hasBounds_toFields_iff.1 hbounds
  exact h.elim hs hf

end

/-- A time range that was read has an empty bound exactly where a text of blanks was given. If it
has none, it is read again as it is, and otherwise it is refused. Every bound that was taken comes
to itself when it is taken again. -/
theorem ofFields_settles (fields : Fields) :
    (∀ r, ofFields fields = .ok r →
      (r.start = "" ↔ BlankAt fields "from") ∧ (r.finish = "" ↔ BlankAt fields "to") ∧
      (¬ BlankAt fields "from" ∧ ¬ BlankAt fields "to" → ofFields r.toFields = .ok r) ∧
      (BlankAt fields "from" ∨ BlankAt fields "to" →
        ∃ names, ofFields r.toFields = .error (.missing names))) ∧
    ∀ d s, normalizeBound d = .ok s → normalizeBound (.text s) = .ok s := by
  refine ⟨fun r h => ?_, fun d s h => (isNormalBound_of_ok h).normalizeBound_eq⟩
  obtain ⟨start, finish, hbounds, hs, hf⟩ := exists_bounds h
  have hstart : r.start = "" ↔ BlankAt fields "from" := by
    rw [eq_empty_iff_of_ok hs, BlankAt, hbounds.start_eq]
    simp
  have hfinish : r.finish = "" ↔ BlankAt fields "to" := by
    rw [eq_empty_iff_of_ok hf, BlankAt, hbounds.finish_eq]
    simp
  rw [← hstart, ← hfinish]
  exact ⟨Iff.rfl, Iff.rfl, fun ⟨hs', hf'⟩ =>
    ofFields_toFields (isNormalBound_of_ok hs) (isNormalBound_of_ok hf) hs' hf',
    ofFields_toFields_of_empty⟩

/-- A time range that starts at a blank. -/
def blankStart : Fields := [("from", .text " "), ("to", .text "now")]

/-- A time range that is read, has an empty bound, and is refused when it is read again. -/
theorem refused_blankStart :
    ofFields blankStart = .ok ⟨"", "now"⟩ ∧
      ofFields (toFields ⟨"", "now"⟩) = .error (.missing ["from"]) := by
  have hblank : normalizeBound (.text " ") = .ok "" := by
    have htext : normalizeText (trim " ") = "" := by decide +kernel
    rw [normalizeBound, htext]
  have hnow : normalizeBound (.text "now") = .ok "now" := by
    have htext : normalizeText (trim "now") = "now" := by decide +kernel
    rw [normalizeBound, htext]
  have hbounds : HasBounds blankStart (.text " ") (.text "now") := ⟨rfl, rfl, rfl, rfl⟩
  refine ⟨?_, rfl⟩
  rw [ofFields_of_hasBounds hbounds, hblank, hnow]
  rfl

end TimeRange

end PanelExport
