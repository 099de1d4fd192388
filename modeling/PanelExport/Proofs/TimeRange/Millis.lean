import PanelExport.Proofs.Double.Thousandths
import PanelExport.Proofs.Instant.Shown
import PanelExport.Proofs.TimeRange.Normal

/-!
# Bounds from instants

The bound of an instant is its number of milliseconds since the start of 1970. The number goes
through a double of seconds, and where the double is too small, the bound is one millisecond nearer
to 1970 than the instant.

* `instantMillis_eq`: what a whole number of milliseconds comes to.
* `normalizeBound_shows`: the bound of every text that shows an instant in whole milliseconds.
* `normalizeBound_short`: a text whose bound is another instant.
-/

namespace PanelExport

open Document Instant

/-- A whole number of milliseconds goes through its double of seconds. -/
theorem instantMillis_eq {ms : Int} (h : ms.natAbs < 2 ^ 48) :
    instantMillis (1000 * ms) =
      if Double.LosesThousandth ms.natAbs then ms - ms.sign else ms := by
  rw [instantMillis, Double.trunc?_thousandths h]
  rfl

section

variable {day time : Nat} {fraction : List Char} {offset : Int}

/-- With at most three digits in the fraction and an offset in whole minutes, the instant is a whole
number of milliseconds, and far less than a double can hold. -/
theorem exists_millis {cs : List Char} (h : Shows cs day time fraction offset)
    (hfraction : fraction.length ≤ 3) (hoffset : 60 * 1000000 ∣ offset) :
    ∃ ms : Int, 1000 * ms = ((day : Int) - Calendar.epochDay) * dayMicros + time - offset ∧
      ms.natAbs < 2 ^ 48 := by
  have hday := h.day_le
  have htime := h.time_lt
  have hbounds := h.offset_lt
  obtain ⟨t, rfl⟩ := h.dvd_time hfraction
  obtain ⟨o, rfl⟩ := hoffset
  simp only [Calendar.dayBound, Calendar.epochDay, dayMicros] at *
  exact ⟨((day : Int) - 719163) * 86400000 + t - 60000 * o, by push_cast; ring, by omega⟩

/-- The bound of a text that is no run of digits and shows an instant in whole milliseconds is the
number of them since the start of 1970, but one nearer to zero where the number loses one on its
way through a double of seconds. -/
theorem normalizeBound_shows {s : String} (hdigits : ¬ IsDigitText (trim s))
    (h : Shows (spellZones (trim s).toList) day time fraction offset)
    (hfraction : fraction.length ≤ 3) (hoffset : 60 * 1000000 ∣ offset) :
    ∃ ms : Int, 1000 * ms = ((day : Int) - Calendar.epochDay) * dayMicros + time - offset ∧
      normalizeBound (.text s) = .ok (toString
        (if Double.LosesThousandth ms.natAbs then ms - ms.sign else ms)) := by
  obtain ⟨ms, hms, hsmall⟩ := exists_millis h hfraction hoffset
  have hread : instantOf? (trim s) = some (1000 * ms) :=
    readInstant?_eq_some_iff.2 ⟨day, time, fraction, offset, h, hms⟩
  refine ⟨ms, hms, ?_⟩
  rw [normalizeBound, normalizeText_of_instant hdigits hread, instantMillis_eq hsmall]

end

/-- A text that shows an instant after the last second of a signed number of 32 bits. -/
def lateText : String := "2038-01-19T03:14:08.002Z"

/-- The parts of the instant: its day, the time of day, the fraction and no offset. -/
theorem shows_lateText :
    Shows (spellZones (trim lateText).toList) 744018 11648002000 "002".toList 0 := by
  have hspelled : spellZones (trim lateText).toList = "2038-01-19T03:14:08.002+00:00".toList := by
    decide +kernel
  have hsize : dateSize? "2038-01-19T03:14:08.002+00:00".toList = some 10 := by decide +kernel
  have hbehind : "2038-01-19T03:14:08.002+00:00".toList.drop 10 =
      'T' :: "03:14:08.002+00:00".toList := by decide +kernel
  have hfraction : fractionOf "03:14:08.002+00:00".toList = "002".toList := by decide +kernel
  rw [hspelled, ← hfraction]
  exact .time (by decide +kernel) hsize (by decide +kernel) hbehind (by decide +kernel)

theorem normalizeBound_shows_lateText :
    ¬ IsDigitText (trim lateText) ∧
    Shows (spellZones (trim lateText).toList) 744018 11648002000 "002".toList 0 ∧
    "002".toList.length ≤ 3 ∧ (60 * 1000000 : Int) ∣ 0 ∧
    ∃ ms : Int, 1000 * ms = ((744018 : Nat) - Calendar.epochDay : Int) * dayMicros +
        (11648002000 : Nat) - 0 ∧
      normalizeBound (.text lateText) = .ok (toString
        (if Double.LosesThousandth ms.natAbs then ms - ms.sign else ms)) := by
  have hdigits : ¬ IsDigitText (trim lateText) := by
    rw [← isDigitText_iff]
    decide +kernel
  exact ⟨hdigits, shows_lateText, by decide, by decide,
    normalizeBound_shows hdigits shows_lateText (by decide) (by decide)⟩

/-- The bound of the text is not the number of the milliseconds that the text shows. -/
theorem normalizeBound_short :
    Shows (spellZones (trim lateText).toList) 744018 11648002000 "002".toList 0 ∧
    1000 * 2147483648002 = ((744018 : Nat) - Calendar.epochDay : Int) * dayMicros +
      (11648002000 : Nat) - 0 ∧
    normalizeBound (.text lateText) = .ok "2147483648001" := by
  have htext : normalizeText (trim lateText) = "2147483648001" := by decide +kernel
  exact ⟨shows_lateText, by decide, by rw [normalizeBound, htext]⟩

end PanelExport
