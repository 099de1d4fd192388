import Mathlib.Data.Option.Basic
import Mathlib.Tactic.Ring
import PanelExport.Instant.Iso

/-!
# What the text of an instant shows

A text that is read as an instant shows a day, a time of day and an offset, and the instant is what
they add up to. The time of day may end in a fraction of a second, and all three are bounded, as the
greatest year is.

* `Shows`, `readInstant?_eq_some_iff`: the relation between a text and its parts, and the instant.
* `Shows.day_le`, `Shows.time_lt`, `Shows.offset_lt`: the bounds.
* `Shows.dvd_time`: a fraction of at most three digits shows whole milliseconds.
-/

namespace PanelExport

/-! ## Days -/

namespace Calendar

theorem daysInMonth_le (year month : Nat) : daysInMonth year month ≤ 31 := by
  unfold daysInMonth
  split_ifs <;> decide

/-- Every month before another one has at most 31 days. -/
theorem daysBeforeMonth_le (year month : Nat) : daysBeforeMonth year month ≤ 31 * (month - 1) := by
  have sum_le : ∀ months : List Nat,
      months.foldr (daysInMonth year · + ·) 0 ≤ 31 * months.length := by
    intro months
    induction months with
    | nil => exact Nat.zero_le _
    | cons month months ih =>
      have := daysInMonth_le year month
      simp only [List.foldr_cons, List.length_cons]
      omega
  have := sum_le (List.range' 1 (month - 1))
  rwa [List.length_range'] at this

/-- A number that no day exceeds. -/
def dayBound : Nat := 3652500

/-- There are fewer days before the greatest year than the bound says. -/
theorem daysBeforeYear_le {year : Nat} (h : year ≤ maxYear) : daysBeforeYear year ≤ 3651694 := by
  simp only [daysBeforeYear, maxYear] at *
  omega

/-- A day of the calendar is within the bound. -/
theorem dayOf?_le {year month day n : Nat} (h : dayOf? year month day = some n) : n ≤ dayBound := by
  simp only [dayOf?, Option.ite_none_right_eq_some, Option.some.injEq] at h
  obtain ⟨⟨-, hyear, -, hmonth, -, hday⟩, rfl⟩ := h
  have hy := daysBeforeYear_le hyear
  have hm := daysBeforeMonth_le year month
  have hd := daysInMonth_le year month
  rw [dayBound]
  omega

/-- A day of a week is within the bound. -/
theorem dayOfWeek?_le {year week day n : Nat} (h : dayOfWeek? year week day = some n) :
    n ≤ dayBound := by
  simp only [dayOfWeek?, Option.ite_none_right_eq_some, Option.some.injEq] at h
  obtain ⟨-, hle, rfl⟩ := h
  exact hle.trans (by decide)

end Calendar

namespace Instant

open Calendar

theorem readWeek?_le {year size used : Nat} {extended : Bool} {cs : List Char} {n : Nat}
    (h : readWeek? year size used extended cs = some n) : n ≤ dayBound := by
  simp only [readWeek?, Option.bind_eq_bind, Option.bind_eq_some_iff, Prod.exists] at h
  obtain ⟨week, rest, -, h⟩ := h
  split at h
  · split at h <;>
    · simp only [Option.bind_eq_some_iff, Prod.exists] at h
      obtain ⟨-, -, day, -, -, h⟩ := h
      exact dayOfWeek?_le h
  · exact dayOfWeek?_le h

/-- A date that is read is within the bound. -/
theorem readDate?_le {size : Nat} {cs : List Char} {n : Nat} (h : readDate? size cs = some n) :
    n ≤ dayBound := by
  simp only [readDate?, Option.bind_eq_bind, Option.bind_eq_some_iff, Prod.exists] at h
  obtain ⟨year, rest, -, h⟩ := h
  -- With and without a hyphen behind the year.
  generalize takeChar? '-' rest = hyphen at h
  cases hyphen with
  | none =>
    split at h
    · exact readWeek?_le h
    · simp only [Bool.false_eq_true, if_false, Option.bind_eq_some_iff, Prod.exists] at h
      obtain ⟨month, rest', -, -, -, day, -, -, h⟩ := h
      exact dayOf?_le h
  | some behind =>
    split at h
    · exact readWeek?_le h
    · simp only [if_true, Option.bind_eq_some_iff, Prod.exists] at h
      obtain ⟨month, rest', -, -, -, day, -, -, h⟩ := h
      exact dayOf?_le h

/-! ## Digits -/

theorem digitValue_lt {c : Char} (h : isAsciiDigit c = true) : c.toNat - '0'.toNat < 10 := by
  simp only [isAsciiDigit, Bool.and_eq_true, decide_eq_true_eq] at h
  have h' : c.toNat ≤ '9'.toNat := h.2
  have hnine : '9'.toNat = 57 := rfl
  have hzero : '0'.toNat = 48 := rfl
  omega

/-- A row of digits is below the power of ten that its length gives. -/
theorem takeDigits_lt {size n : Nat} {cs rest : List Char}
    (h : takeDigits size cs = some (n, rest)) : n < 10 ^ size := by
  have fold_lt : ∀ (digits : List Char) (v : Nat), digits.all isAsciiDigit = true →
      digits.foldl (fun v c => 10 * v + (c.toNat - '0'.toNat)) v <
        10 ^ digits.length * (v + 1) := by
    intro digits
    induction digits with
    | nil =>
      intro v _
      simp
    | cons c digits ih =>
      intro v hall
      rw [List.all_cons, Bool.and_eq_true] at hall
      have hc := digitValue_lt hall.1
      rw [List.foldl_cons, List.length_cons, Nat.pow_succ, Nat.mul_assoc]
      refine (ih _ hall.2).trans_le (Nat.mul_le_mul_left _ ?_)
      omega
  simp only [takeDigits, Option.ite_none_right_eq_some, Option.some.injEq, Prod.mk.injEq] at h
  obtain ⟨⟨hlength, hall⟩, rfl, -⟩ := h
  have := fold_lt (cs.take size) 0 hall
  rwa [hlength, Nat.zero_add, Nat.mul_one] at this

/-! ## Times of day -/

/-- What stands behind the fields of a clock: the digits of a fraction of a second. The fields are
passed over as they are read. -/
def behindFields (colons? : Option Bool) : Nat → List Char → List Char
  | 0, cs => cs
  | fields + 1, cs =>
    match cs.drop 2 with
    | [] => []
    | c :: more =>
      let colons := colons?.getD (c == ':')
      if more.isEmpty && c.toNat < 128 then []
      else if colons && c == ':' then behindFields (some colons) fields more
      else if c == '.' || c == ',' then more
      else if colons then []
      else behindFields (some colons) fields (c :: more)

/-- The fraction of the second in a time of day, which ends where an offset starts. -/
def fractionOf (time : List Char) : List Char :=
  behindFields none 3 (time.takeWhile (!isOffsetSign ·))

/-- The number of microseconds that the digits of a fraction give: as if six digits stood there. -/
def IsFraction (fraction : List Char) (micro : Nat) : Prop :=
  ∃ n, n < 10 ^ min 6 fraction.length ∧ micro = n * 10 ^ (6 - min 6 fraction.length)

theorem isFraction_nil : IsFraction [] 0 := ⟨0, by decide, rfl⟩

/-- A fraction is less than a second. -/
theorem IsFraction.lt {fraction : List Char} {micro : Nat} (h : IsFraction fraction micro) :
    micro < 1000000 := by
  obtain ⟨n, hn, rfl⟩ := h
  obtain ⟨size, hsize⟩ : ∃ size, size = min 6 fraction.length := ⟨_, rfl⟩
  rw [← hsize] at hn ⊢
  calc n * 10 ^ (6 - size) < 10 ^ size * 10 ^ (6 - size) :=
        Nat.mul_lt_mul_of_pos_right hn (Nat.pow_pos (by decide))
    _ = 1000000 := by
        rw [← Nat.pow_add, Nat.add_sub_cancel' (by omega)]

/-- A fraction of up to three digits is in whole thousandths. -/
theorem IsFraction.dvd {fraction : List Char} {micro : Nat} (h : IsFraction fraction micro)
    (hlength : fraction.length ≤ 3) : 1000 ∣ micro := by
  obtain ⟨n, -, rfl⟩ := h
  exact Dvd.dvd.mul_left (pow_dvd_pow 10 (by omega : 3 ≤ 6 - min 6 fraction.length)) n

/-- What is read as a fraction of a second is one. -/
theorem readFraction_micro {behind followed : Bool} {k k' : Clock} {cs : List Char}
    (h : readFraction behind k cs = some (k', followed)) : IsFraction cs k'.micro := by
  simp only [readFraction, Option.bind_eq_bind, Option.bind_eq_some_iff, Prod.exists,
    Option.pure_def, Option.some.injEq, Prod.mk.injEq] at h
  obtain ⟨n, rest, hdigits, rfl, -⟩ := h
  exact ⟨n, takeDigits_lt hdigits, rfl⟩

theorem Clock.put_micro (k : Clock) (field n : Nat) : (k.put field n).micro = k.micro := by
  unfold Clock.put
  split <;> rfl

/-- The fraction of a clock is what stands behind its fields. -/
theorem readFields_micro (behind : Bool) {followed : Bool} (fields : Nat) :
    ∀ {k k' : Clock} {colons? : Option Bool} {field : Nat} {cs : List Char}, k.micro = 0 →
      readFields behind k colons? fields field cs = some (k', followed) →
      IsFraction (behindFields colons? fields cs) k'.micro := by
  induction fields with
  | zero =>
    intro k k' colons? field cs _ h
    rw [readFields] at h
    exact readFraction_micro h
  | succ fields ih =>
    intro k k' colons? field cs hk h
    rw [readFields] at h
    simp only [Option.bind_eq_bind, Option.bind_eq_some_iff, Prod.exists] at h
    obtain ⟨n, rest, hdigits, h⟩ := h
    have hrest : cs.drop 2 = rest := by
      simp only [takeDigits, Option.ite_none_right_eq_some, Option.some.injEq, Prod.mk.injEq]
        at hdigits
      exact hdigits.2.2
    have hput : (k.put field n).micro = 0 := (k.put_micro field n).trans hk
    rw [behindFields, hrest]
    split at h
    case h_1 =>
      cases h
      rw [hput]
      exact isFraction_nil
    case h_2 c more =>
      simp only
      split_ifs at h ⊢
      · cases h
        rw [hput]
        exact isFraction_nil
      · exact ih hput h
      · exact readFraction_micro h
      · exact ih hput h

/-- The fraction of a time stands behind its three fields. -/
theorem readClock_micro {behind followed : Bool} {k : Clock} {cs : List Char}
    (h : readClock behind cs = some (k, followed)) : IsFraction (behindFields none 3 cs) k.micro :=
  readFields_micro behind 3 rfl h

/-- A time of day is less than a day. -/
theorem Clock.micros_lt {k : Clock} (h : k.isTimeOfDay = true) (hmicro : k.micro < 1000000) :
    (k.micros : Int) < dayMicros := by
  simp only [Clock.isTimeOfDay, Bool.and_eq_true, decide_eq_true_eq] at h
  simp only [Clock.micros, Clock.seconds, dayMicros]
  omega

/-- An offset is less than a day in either direction. -/
theorem offsetMicros?_lt {negative : Bool} {k : Clock} {offset : Int}
    (h : offsetMicros? negative k = some offset) : -dayMicros < offset ∧ offset < dayMicros := by
  simp only [offsetMicros?] at h
  simp only [dayMicros]
  split_ifs at h <;> cases h <;> omega

/-- A time of day, its fraction and the offset behind it. -/
theorem readTime?_eq_some {cs : List Char} {time : Nat} {offset : Int}
    (h : readTime? cs = some (time, offset)) :
    (∃ k : Clock, time = k.micros ∧ k.isTimeOfDay = true ∧ IsFraction (fractionOf cs) k.micro) ∧
      -dayMicros < offset ∧ offset < dayMicros := by
  rw [readTime?] at h
  split at h
  case h_1 =>
    simp only [Option.bind_eq_bind, Option.bind_eq_some_iff, Prod.exists,
      Option.ite_none_right_eq_some, Bool.and_eq_true, Option.pure_def, Option.some.injEq,
      Prod.mk.injEq] at h
    obtain ⟨k, followed, hclock, ⟨hday, -⟩, rfl, rfl⟩ := h
    exact ⟨⟨k, rfl, hday, readClock_micro hclock⟩, by decide, by decide⟩
  case h_2 =>
    simp only [Option.bind_eq_bind, Option.bind_eq_some_iff, Prod.exists,
      Option.ite_none_right_eq_some, Bool.and_eq_true, Option.pure_def, Option.some.injEq,
      Prod.mk.injEq] at h
    obtain ⟨k, followed, hclock, size, -, -, offset', hoffset, ⟨hday, -⟩, rfl, rfl⟩ := h
    exact ⟨⟨k, rfl, hday, readClock_micro hclock⟩, offsetMicros?_lt hoffset⟩

/-! ## Instants -/

/-- A text shows a day, the microseconds since its start, the fraction they end in and an offset
from universal time. A date alone shows the start of its day. -/
inductive Shows (cs : List Char) : Nat → Nat → List Char → Int → Prop
  | date {size day : Nat} (long : 7 ≤ cs.length) (hsize : dateSize? cs = some size)
      (hday : readDate? size cs = some day) (alone : cs.drop size = []) : Shows cs day 0 [] 0
  | time {size day time : Nat} {offset : Int} {separator : Char} {text : List Char}
      (long : 7 ≤ cs.length) (hsize : dateSize? cs = some size)
      (hday : readDate? size cs = some day) (behind : cs.drop size = separator :: text)
      (htime : readTime? text = some (time, offset)) : Shows cs day time (fractionOf text) offset

section

variable {cs fraction : List Char} {day time : Nat} {offset : Int}

/-- A text is read as an instant if it shows one: the time of day after the start of the day, less
the offset. -/
theorem readInstant?_eq_some_iff {micros : Int} :
    readInstant? cs = some micros ↔ ∃ day time fraction offset, Shows cs day time fraction offset ∧
      micros = ((day : Int) - epochDay) * dayMicros + time - offset := by
  constructor
  · intro h
    simp only [readInstant?, Option.ite_none_left_eq_some, Nat.not_lt, Option.bind_eq_bind,
      Option.bind_eq_some_iff] at h
    obtain ⟨long, size, hsize, day, hday, h⟩ := h
    split at h
    case h_1 alone =>
      cases h
      exact ⟨day, 0, [], 0, .date long hsize hday alone, by simp⟩
    case h_2 separator text behind =>
      simp only [Option.bind_eq_some_iff, Prod.exists, Option.pure_def, Option.some.injEq] at h
      obtain ⟨time, offset, htime, rfl⟩ := h
      exact ⟨day, time, fractionOf text, offset, .time long hsize hday behind htime, rfl⟩
  · rintro ⟨day, time, fraction, offset, hshows, rfl⟩
    cases hshows with
    | date long hsize hday alone =>
      simp [readInstant?, Nat.not_lt.2 long, hsize, hday, alone]
    | time long hsize hday behind htime =>
      simp [readInstant?, Nat.not_lt.2 long, hsize, hday, behind, htime]

/-- The day that a text shows is within the bound. -/
theorem Shows.day_le (h : Shows cs day time fraction offset) : day ≤ dayBound := by
  cases h with
  | date _ _ hday _ => exact readDate?_le hday
  | time _ _ hday _ _ => exact readDate?_le hday

/-- The time that a text shows is less than a day. -/
theorem Shows.time_lt (h : Shows cs day time fraction offset) : (time : Int) < dayMicros := by
  cases h with
  | date => decide
  | time _ _ _ _ htime =>
    obtain ⟨⟨k, rfl, hday, hfraction⟩, -⟩ := readTime?_eq_some htime
    exact k.micros_lt hday hfraction.lt

theorem Shows.offset_lt (h : Shows cs day time fraction offset) :
    -dayMicros < offset ∧ offset < dayMicros := by
  cases h with
  | date => decide
  | time _ _ _ _ htime => exact (readTime?_eq_some htime).2

/-- A fraction of at most three digits shows whole milliseconds. -/
theorem Shows.dvd_time (h : Shows cs day time fraction offset) (hlength : fraction.length ≤ 3) :
    1000 ∣ time := by
  cases h with
  | date => exact Nat.dvd_zero 1000
  | time _ _ _ _ htime =>
    obtain ⟨⟨k, rfl, -, hfraction⟩, -⟩ := readTime?_eq_some htime
    exact Nat.dvd_add (Dvd.dvd.mul_left (by decide) _) (hfraction.dvd hlength)

end

end Instant

end PanelExport
