import PanelExport.Proofs.Double.Order
import PanelExport.Proofs.Instant.Shown
import PanelExport.Proofs.Instant.Spelled
import PanelExport.Proofs.TimeRange.Normal

/-!
# The order of bounds

The bound of a text that stands for an instant hangs on the instant alone, however it is written,
and a later instant has no lesser bound, before 1970 as after. The spellings of an instant are read
as the instant, with blanks around them and with the zone letter in place of an offset of zero.

* `instantMillis_mono`: later instants have no lesser numbers of milliseconds.
* `instantOf?_spelled`: the spellings of an instant.
* `normalizeBound_ordered`: the bounds of two texts.
-/

namespace PanelExport

open Document Instant

/-! ## Milliseconds -/

theorem instantMillis_mono {t t' : Int} (ht : t.natAbs < 2 ^ 64) (ht' : t'.natAbs < 2 ^ 64)
    (hle : t ≤ t') : instantMillis t ≤ instantMillis t' := by
  obtain ⟨n, n', hn, hn', hle⟩ := Double.trunc?_thousandths_mono ht ht' hle
  rwa [instantMillis, instantMillis, hn, hn']

/-- An instant is within the years of the calendar. -/
theorem natAbs_lt_of_readInstant? {cs : List Char} {t : Int} (h : readInstant? cs = some t) :
    t.natAbs < 2 ^ 64 := by
  obtain ⟨day, time, fraction, offset, hshows, rfl⟩ := readInstant?_eq_some_iff.1 h
  have hday := hshows.day_le
  have htime := hshows.time_lt
  have hoffset := hshows.offset_lt
  simp only [Calendar.dayBound, Calendar.epochDay, dayMicros] at *
  omega

/-! ## Zone letters -/

theorem spellZones_append (cs cs' : List Char) :
    spellZones (cs ++ cs') = spellZones cs ++ spellZones cs' := List.flatMap_append

theorem spellZones_of_not_mem {cs : List Char} (h : 'Z' ∉ cs) : spellZones cs = cs := by
  induction cs with
  | nil => rfl
  | cons c cs ih =>
    obtain ⟨hc, hcs⟩ := not_or.1 (mt List.mem_cons.2 h)
    rw [spellZones, List.flatMap_cons, if_neg (Ne.symm hc), ← spellZones, ih hcs]
    rfl

theorem not_mem_spellZones (cs : List Char) : 'Z' ∉ spellZones cs := by
  rw [spellZones, List.mem_flatMap]
  rintro ⟨c, -, hc⟩
  split at hc
  · revert hc
    decide
  · rename_i hne
    exact hne (List.mem_singleton.1 hc).symm

theorem not_mem_of_over {marks cs : List Char} (h : Over marks cs) (hmarks : 'Z' ∉ marks) :
    'Z' ∉ cs := by
  intro hz
  rcases h _ hz with hdigit | hmark
  · exact absurd hdigit (by decide)
  · exact hmarks hmark

/-- The zone letter is an offset of no hours and no minutes. -/
theorem spellsOffset_spellZones {zs : List Char} {offset : Int} (h : SpellsOffset zs offset) :
    SpellsOffset (spellZones zs) offset := by
  cases h with
  | none => exact .none
  | zone =>
    have hzero : IsNumeral 2 0 ['0', '0'] := by decide
    have hclock : SpellsClock "00:00".toList ⟨0, 0, 0, 0⟩ := .minute true hzero hzero
    have hplus : isOffsetSign '+' = true := rfl
    exact SpellsOffset.signed hplus hclock (fun _ => rfl) (by decide)
  | @signed sign cs k isSign clock whole within =>
    have hsign : 'Z' ≠ sign := by
      rintro rfl
      exact absurd isSign (by decide)
    have hclock := not_mem_of_over clock.over (by decide)
    rw [spellZones_of_not_mem (by simp [hsign, hclock])]
    exact .signed isSign clock whole within

theorem spellsInstant_spellZones {cs : List Char} {t : Int} (h : SpellsInstant cs t) :
    SpellsInstant (spellZones cs) t := by
  cases h with
  | date day =>
    rw [spellZones_of_not_mem (not_mem_of_over day.over (by decide))]
    exact .date day
  | @time ds cs zs n k offset separator day apart unzoned clock inDay shift =>
    have hfront : 'Z' ∉ ds ++ separator :: cs := by
      have hds := not_mem_of_over day.over (by decide)
      have hcs := not_mem_of_over clock.over (by decide)
      simp [hds, hcs, unzoned.symm]
    rw [← List.cons_append, ← List.append_assoc, spellZones_append, spellZones_of_not_mem hfront,
      List.append_assoc, List.cons_append]
    exact .time day apart unzoned clock inDay (spellsOffset_spellZones shift)

/-! ## Blanks -/

/-- The blanks around a text that has none at its ends are trimmed. -/
theorem trim_blanks {lead cs tail : List Char} (hlead : ∀ c ∈ lead, isBlank c = true)
    (htail : ∀ c ∈ tail, isBlank c = true) (hfirst : ∀ c ∈ cs.head?, isBlank c = false)
    (hlast : ∀ c ∈ cs.getLast?, isBlank c = false) (hne : cs ≠ []) :
    trim (String.ofList (lead ++ cs ++ tail)) = String.ofList cs := by
  have hstart : trimStart (lead ++ (cs ++ tail)) = cs ++ tail := by
    rw [trimStart, List.dropWhile_append_of_pos hlead]
    refine trimStart_of_head? fun c hc => hfirst c ?_
    rwa [List.head?_append_of_ne_nil _ hne] at hc
  have hend : trimStart (tail.reverse ++ cs.reverse) = cs.reverse := by
    rw [trimStart, List.dropWhile_append_of_pos fun c hc => htail c (List.mem_reverse.1 hc)]
    exact trimStart_of_head? fun c hc => hlast c (by rwa [List.head?_reverse] at hc)
  rw [trim, String.toList_ofList, List.append_assoc, hstart, List.reverse_append, hend,
    List.reverse_reverse]

theorem isBlank_of_isAsciiDigit {c : Char} (h : isAsciiDigit c = true) : isBlank c = false := by
  simp only [isAsciiDigit, Bool.and_eq_true, decide_eq_true_eq] at h
  have hlow : '0'.toNat ≤ c.toNat := h.1
  have hhigh : c.toNat ≤ '9'.toNat := h.2
  refine isBlank_of_isDecimalDigit ?_
  rw [isDecimalDigit, digitValue?_ascii c hlow (Nat.lt_succ_of_le hhigh)]
  rfl

theorem isBlank_of_over {marks cs : List Char} (h : Over marks cs)
    (hmarks : marks.all (!isBlank ·) = true) : ∀ c ∈ cs, isBlank c = false := by
  intro c hc
  rcases h c hc with hdigit | hmark
  · exact isBlank_of_isAsciiDigit hdigit
  · simpa using List.all_eq_true.1 hmarks c hmark

theorem isBlank_of_spellsClock {cs : List Char} {k : Clock} (h : SpellsClock cs k) :
    ∀ c ∈ cs, isBlank c = false :=
  isBlank_of_over h.over (by decide +kernel)

theorem isBlank_of_spellsDay {ds : List Char} {n : Nat} (h : SpellsDay ds n) :
    ∀ c ∈ ds, isBlank c = false :=
  isBlank_of_over h.over (by decide +kernel)

theorem isBlank_of_spellsOffset {zs : List Char} {offset : Int} (h : SpellsOffset zs offset) :
    ∀ c ∈ zs, isBlank c = false := by
  intro c hc
  cases h with
  | none => cases hc
  | zone =>
    obtain rfl := List.mem_singleton.1 hc
    decide +kernel
  | signed isSign clock whole within =>
    rcases List.mem_cons.1 hc with rfl | hc
    · rw [isOffsetSign, Bool.or_eq_true, beq_iff_eq, beq_iff_eq] at isSign
      rcases isSign with rfl | rfl <;> decide +kernel
    · exact isBlank_of_spellsClock clock c hc

/-- An instant is written without blanks at its ends. -/
theorem isBlank_ends {cs : List Char} {t : Int} (h : SpellsInstant cs t) :
    (∀ c ∈ cs.head?, isBlank c = false) ∧ (∀ c ∈ cs.getLast?, isBlank c = false) ∧ cs ≠ [] := by
  cases h with
  | date day =>
    have hvisible := isBlank_of_spellsDay day
    exact ⟨fun c hc => hvisible c (List.mem_of_mem_head? hc),
      fun c hc => hvisible c (List.mem_of_mem_getLast? hc), day.ne_nil⟩
  | @time ds cs zs n k offset separator day apart unzoned clock inDay shift =>
    refine ⟨fun c hc => ?_, fun c hc => ?_, by simp⟩
    · rw [List.head?_append_of_ne_nil _ day.ne_nil] at hc
      exact isBlank_of_spellsDay day c (List.mem_of_mem_head? hc)
    · obtain ⟨a, b, more, rfl, -⟩ := exists_two_digits clock
      rw [List.getLast?_append_of_ne_nil _ (by simp), List.cons_append,
        List.getLast?_cons_cons] at hc
      have hmem : c ∈ (a :: b :: more) ++ zs := List.mem_of_mem_getLast? hc
      rcases List.mem_append.1 hmem with hc | hc
      · exact isBlank_of_spellsClock clock c hc
      · exact isBlank_of_spellsOffset shift c hc

/-! ## Bounds -/

/-- Each spelling of an instant is read as the instant, also with blanks around it. -/
theorem instantOf?_spelled {lead cs tail : List Char} {t : Int}
    (hlead : ∀ c ∈ lead, isBlank c = true) (htail : ∀ c ∈ tail, isBlank c = true)
    (h : SpellsInstant cs t) : instantOf? (trim (String.ofList (lead ++ cs ++ tail))) = some t := by
  obtain ⟨hfirst, hlast, hne⟩ := isBlank_ends h
  rw [trim_blanks hlead htail hfirst hlast hne, instantOf?, String.toList_ofList]
  exact readInstant?_spelled (spellsInstant_spellZones h) (not_mem_spellZones cs)

/-- Two texts that are no runs of digits and stand for instants have numbers as bounds: the same
text if the instants are the same, and otherwise in the order of the instants. -/
theorem normalizeBound_ordered :
    (∀ (s s' : String) (t t' : Int), ¬ IsDigitText (trim s) → ¬ IsDigitText (trim s') →
      instantOf? (trim s) = some t → instantOf? (trim s') = some t' →
      ∃ n n' : Int, normalizeBound (.text s) = .ok (toString n) ∧
        normalizeBound (.text s') = .ok (toString n') ∧
        (t = t' → toString n = toString n') ∧ (t ≤ t' → n ≤ n')) ∧
    ∀ (lead cs tail : List Char) (t : Int), (∀ c ∈ lead, isBlank c = true) →
      (∀ c ∈ tail, isBlank c = true) → SpellsInstant cs t →
      instantOf? (trim (String.ofList (lead ++ cs ++ tail))) = some t := by
  refine ⟨fun s s' t t' hs hs' ht ht' => ?_, fun lead cs tail t => instantOf?_spelled⟩
  refine ⟨instantMillis t, instantMillis t', ?_, ?_, ?_, ?_⟩
  · rw [normalizeBound, normalizeText_of_instant hs ht]
  · rw [normalizeBound, normalizeText_of_instant hs' ht']
  · rintro rfl
    rfl
  · exact instantMillis_mono (natAbs_lt_of_readInstant? ht) (natAbs_lt_of_readInstant? ht')

/-- The night after a leap day, in the extended form and west of the zero meridian. -/
def leapNight : String := "2024-02-29T23:30:00.5-01:00"

/-- The same night in the basic form, with the zone letter and a blank in front. -/
def leapNightZone : String := " 20240301T003000,500Z"

/-- The last microsecond before 1970. -/
def lastBefore : String := "1969-12-31T23:59:59.999999"

theorem normalizeBound_ordered_leapNight :
    (normalizeBound (.text leapNight) = normalizeBound (.text leapNightZone) ∧
      ∃ n n' : Int, normalizeBound (.text lastBefore) = .ok (toString n) ∧
        normalizeBound (.text leapNight) = .ok (toString n') ∧ n ≤ n') ∧
    instantOf? (trim (String.ofList ([' '] ++ "1970-W01-4".toList ++ ['\n']))) = some 0 := by
  have apart {s : String} (h : (!s.toList.isEmpty && s.toList.all isDigit) = false) :
      ¬ IsDigitText s := by
    rw [← isDigitText_iff, h]
    exact Bool.false_ne_true
  have hnight : instantOf? (trim leapNight) = some 1709253000500000 := by decide +kernel
  have hzone : instantOf? (trim leapNightZone) = some 1709253000500000 := by decide +kernel
  have hlast : instantOf? (trim lastBefore) = some (-1) := by decide +kernel
  have hnight' : ¬ IsDigitText (trim leapNight) := apart (by decide +kernel)
  have hzone' : ¬ IsDigitText (trim leapNightZone) := apart (by decide +kernel)
  have hlast' : ¬ IsDigitText (trim lastBefore) := apart (by decide +kernel)
  refine ⟨⟨?_, ?_⟩, ?_⟩
  · obtain ⟨n, n', hn, hn', heq, -⟩ :=
      normalizeBound_ordered.1 _ _ _ _ hnight' hzone' hnight hzone
    rw [hn, hn', heq rfl]
  · obtain ⟨n, n', hn, hn', -, hle⟩ :=
      normalizeBound_ordered.1 _ _ _ _ hlast' hnight' hlast hnight
    exact ⟨n, n', hn, hn', hle (by decide)⟩
  · have hyear : IsNumeral 4 1970 "1970".toList := by decide
    have hweek : IsNumeral 2 1 "01".toList := by decide
    have hday : IsNumeral 1 4 "4".toList := by decide
    have hfirst : Calendar.IsWeekDay 1970 1 4 Calendar.epochDay :=
      Calendar.isWeekDay_iff.2 (by decide +kernel)
    exact normalizeBound_ordered.2 [' '] _ ['\n'] 0 (List.all_eq_true.1 (by decide))
      (List.all_eq_true.1 (by decide))
      (.date (.weekday true hyear hweek hday hfirst))

end PanelExport
