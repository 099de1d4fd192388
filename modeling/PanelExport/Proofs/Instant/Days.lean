import Mathlib.Algebra.Order.Ring.Nat
import Mathlib.Data.Nat.ModEq
import Mathlib.Tactic.Convert
import Mathlib.Tactic.SplitIfs
import PanelExport.Instant.Calendar

/-!
# Days one after the other

The numbers of the days from the first principles of the calendar. From the first day on, each day
has the number behind that of the day before it: the next one of its month, the first one of the
next month, or the first one of the next year. A week belongs to the year that its Thursday is in.

* `IsDay`, `isDay_iff`: the number of a day by year, month and day.
* `IsWeekDay`, `isWeekDay_iff`: the number of a day by year, week and weekday.
-/

namespace PanelExport.Calendar

/-- The days in the order of their numbers. -/
inductive IsDay : Nat → Nat → Nat → Nat → Prop where
  | first : IsDay 1 1 1 1
  | nextDay {year month day n : Nat} (before : IsDay year month day n)
      (within : day < daysInMonth year month) : IsDay year month (day + 1) (n + 1)
  | nextMonth {year month day n : Nat} (before : IsDay year month day n)
      (last : day = daysInMonth year month) (within : month < 12) : IsDay year (month + 1) 1 (n + 1)
  | nextYear {year n : Nat} (before : IsDay year 12 31 n) (within : year < maxYear) :
      IsDay (year + 1) 1 1 (n + 1)

/-! ## Months and years -/

theorem daysInMonth_pos (year month : Nat) : 0 < daysInMonth year month := by
  unfold daysInMonth
  split_ifs <;> decide

theorem daysBeforeMonth_succ (year : Nat) {month : Nat} (h : 1 ≤ month) :
    daysBeforeMonth year (month + 1) = daysBeforeMonth year month + daysInMonth year month := by
  have sum (months : List Nat) (k : Nat) :
      months.foldr (daysInMonth year · + ·) k = months.foldr (daysInMonth year · + ·) 0 + k := by
    induction months with
    | nil => simp
    | cons m months ih => rw [List.foldr_cons, List.foldr_cons, ih, Nat.add_assoc]
  obtain ⟨m, rfl⟩ := Nat.exists_eq_add_of_le h
  have hrange : List.range' 1 (1 + m) = List.range' 1 m ++ [1 + m] := by
    rw [Nat.add_comm 1 m, List.range'_1_concat, Nat.add_comm 1 m]
  simp only [daysBeforeMonth, Nat.add_sub_cancel, Nat.add_sub_cancel_left, hrange,
    List.foldr_append, List.foldr_cons, List.foldr_nil, Nat.add_zero]
  exact sum _ _

/-- The days of a year. -/
def daysInYear (year : Nat) : Nat := if isLeap year then 366 else 365

/-- A year has the days before December and those of December. -/
theorem daysBeforeMonth_december (year : Nat) : daysBeforeMonth year 12 + 31 = daysInYear year := by
  cases h : isLeap year <;>
    simp [daysBeforeMonth, List.range', daysInMonth, daysInYear, h]

/-- Later months have more days before them. -/
theorem daysBeforeMonth_mono (year : Nat) {month month' : Nat} (h : 1 ≤ month)
    (hle : month ≤ month') : daysBeforeMonth year month ≤ daysBeforeMonth year month' := by
  induction hle with
  | refl => exact Nat.le_refl _
  | step hle ih =>
    rw [Nat.succ_eq_add_one, daysBeforeMonth_succ year (Nat.le_trans h hle)]
    exact Nat.le_add_right_of_le ih

/-- No month goes past the end of its year. -/
theorem daysBeforeMonth_add_le (year : Nat) {month : Nat} (h : 1 ≤ month) (h' : month ≤ 12) :
    daysBeforeMonth year month + daysInMonth year month ≤ daysInYear year := by
  have hend := daysBeforeMonth_mono year (Nat.le_succ_of_le h) (Nat.succ_le_succ h')
  have hdecember : daysInMonth year 12 = 31 := rfl
  rwa [Nat.succ_eq_add_one, daysBeforeMonth_succ year h, Nat.succ_eq_add_one,
    daysBeforeMonth_succ year (by decide), hdecember, daysBeforeMonth_december] at hend

/-- A year adds its days to those before it. -/
theorem daysBeforeYear_succ {year : Nat} (h : 1 ≤ year) :
    daysBeforeYear (year + 1) = daysBeforeYear year + daysInYear year := by
  obtain ⟨n, rfl⟩ := Nat.exists_eq_add_of_le' h
  have hle : n / 100 ≤ n / 4 := by omega
  simp only [daysBeforeYear, daysInYear, isLeap, Nat.add_sub_cancel, Nat.succ_div,
    Nat.dvd_iff_mod_eq_zero, Bool.and_eq_true, Bool.or_eq_true, beq_iff_eq, bne_iff_ne]
  have hcentury : (n + 1) % 100 = 0 → (n + 1) % 4 = 0 := by omega
  have hfour : (n + 1) % 400 = 0 → (n + 1) % 100 = 0 := by omega
  generalize n / 4 = a at *
  generalize n / 100 = b at *
  generalize n / 400 = c at *
  by_cases h4 : (n + 1) % 4 = 0 <;> by_cases h100 : (n + 1) % 100 = 0 <;>
    by_cases h400 : (n + 1) % 400 = 0 <;> simp [h4, h100, h400] at hcentury hfour ⊢ <;> omega

/-- Later years have more days before them. -/
theorem daysBeforeYear_mono {year year' : Nat} (h : 1 ≤ year) (hle : year ≤ year') :
    daysBeforeYear year ≤ daysBeforeYear year' := by
  induction hle with
  | refl => exact Nat.le_refl _
  | step hle ih =>
    rw [Nat.succ_eq_add_one, daysBeforeYear_succ (Nat.le_trans h hle)]
    exact Nat.le_add_right_of_le ih

/-! ## Days of months -/

section

variable {year month day n : Nat}

/-- A date has a number just if its month and its day exist. -/
theorem dayOf?_eq_some_iff : dayOf? year month day = some n ↔
    (1 ≤ year ∧ year ≤ maxYear ∧ 1 ≤ month ∧ month ≤ 12 ∧ 1 ≤ day ∧
      day ≤ daysInMonth year month) ∧
    n = daysBeforeYear year + daysBeforeMonth year month + day := by
  rw [dayOf?, Option.ite_none_right_eq_some, Option.some.injEq, eq_comm (a := n)]

theorem dayOf?_of_isDay (h : IsDay year month day n) : dayOf? year month day = some n := by
  induction h with
  | first => decide
  | @nextDay year month day n _ within ih =>
    rw [dayOf?_eq_some_iff] at ih ⊢
    omega
  | @nextMonth year month day n _ last within ih =>
    rw [dayOf?_eq_some_iff] at ih ⊢
    have hpos := daysInMonth_pos year (month + 1)
    rw [daysBeforeMonth_succ year ih.1.2.2.1]
    omega
  | @nextYear year n _ within ih =>
    rw [dayOf?_eq_some_iff] at ih ⊢
    have hjanuary : daysBeforeMonth (year + 1) 1 = 0 := rfl
    have hpos := daysInMonth_pos (year + 1) 1
    have hdecember := daysBeforeMonth_december year
    rw [daysBeforeYear_succ ih.1.1, hjanuary]
    omega

/-- The days of a month follow its first one. -/
theorem IsDay.within (h : IsDay year month 1 n) {k : Nat} (hk : k < daysInMonth year month) :
    IsDay year month (1 + k) (n + k) := by
  induction k with
  | zero => exact h
  | succ k ih =>
    have hlt : 1 + k < daysInMonth year month := by omega
    exact .nextDay (ih (Nat.lt_of_succ_lt hk)) hlt

/-- Counting through the months of a year leads to the first of each. -/
theorem IsDay.firstOfMonth (h : IsDay year 1 1 n) {k : Nat} (hk : k < 12) :
    IsDay year (1 + k) 1 (n + daysBeforeMonth year (1 + k)) := by
  induction k with
  | zero => exact h
  | succ k ih =>
    have hpos := daysInMonth_pos year (1 + k)
    have hlast := (ih (Nat.lt_of_succ_lt hk)).within (Nat.sub_one_lt_of_lt hpos)
    have hnext := hlast.nextMonth (by omega) (by omega)
    rw [← Nat.add_assoc, daysBeforeMonth_succ year (Nat.le_add_right 1 k)]
    convert hnext using 1
    omega

/-- Counting through the years leads to the first day of each. -/
theorem isDay_firstOfYear {k : Nat} (hk : k < maxYear) :
    IsDay (1 + k) 1 1 (daysBeforeYear (1 + k) + 1) := by
  induction k with
  | zero => exact .first
  | succ k ih =>
    have hfirst : IsDay (1 + k) 12 1 (daysBeforeYear (1 + k) + 1 + daysBeforeMonth (1 + k) 12) :=
      (ih (Nat.lt_of_succ_lt hk)).firstOfMonth (k := 11) (by decide)
    have hlength : daysInMonth (1 + k) 12 = 31 := rfl
    have hlast := hfirst.within (k := 30) (by rw [hlength]; decide)
    have hnext := hlast.nextYear (by omega)
    have hdecember := daysBeforeMonth_december (1 + k)
    rw [← Nat.add_assoc, daysBeforeYear_succ (Nat.le_add_right 1 k), ← hdecember]
    convert hnext using 1
    omega

/-- Counting and adding up lead to the same day. -/
theorem isDay_iff : IsDay year month day n ↔ dayOf? year month day = some n := by
  refine ⟨dayOf?_of_isDay, fun h => ?_⟩
  rw [dayOf?_eq_some_iff] at h
  obtain ⟨⟨hyear, hyear', hmonth, hmonth', hday, hday'⟩, rfl⟩ := h
  obtain ⟨y, rfl⟩ := Nat.exists_eq_add_of_le hyear
  obtain ⟨m, rfl⟩ := Nat.exists_eq_add_of_le hmonth
  obtain ⟨d, rfl⟩ := Nat.exists_eq_add_of_le hday
  have hfirst := (isDay_firstOfYear (k := y) (by omega)).firstOfMonth (k := m) (by omega)
  convert hfirst.within (k := d) (by omega) using 1
  omega

/-- A day is in its year. -/
theorem IsDay.mem_year (h : IsDay year month day n) :
    1 ≤ year ∧ year ≤ maxYear ∧ daysBeforeYear year < n ∧ n ≤ daysBeforeYear (year + 1) := by
  obtain ⟨⟨hyear, hyear', hmonth, hmonth', hday, hday'⟩, rfl⟩ := dayOf?_eq_some_iff.1 (isDay_iff.1 h)
  have hend := daysBeforeMonth_add_le year hmonth hmonth'
  rw [daysBeforeYear_succ hyear]
  omega

/-- The last day of the greatest year. -/
def lastDay : Nat := daysBeforeYear (maxYear + 1)

/-- Every number up to that of the last day is the number of a day. -/
theorem exists_isDay (h : 1 ≤ n) (h' : n ≤ lastDay) : ∃ year month day, IsDay year month day n := by
  induction n with
  | zero => omega
  | succ n ih =>
    by_cases hn : n = 0
    · subst hn
      exact ⟨1, 1, 1, .first⟩
    obtain ⟨year, month, day, hday⟩ := ih (by omega) (by omega)
    obtain ⟨⟨hyear, hyear', hmonth, hmonth', hday₁, hday'⟩, hn⟩ :=
      dayOf?_eq_some_iff.1 (isDay_iff.1 hday)
    by_cases hwithin : day < daysInMonth year month
    · exact ⟨_, _, _, hday.nextDay hwithin⟩
    have hlast : day = daysInMonth year month := by omega
    by_cases hdecember : month < 12
    · exact ⟨_, _, _, hday.nextMonth hlast hdecember⟩
    obtain rfl : month = 12 := by omega
    have hlength : daysInMonth year 12 = 31 := rfl
    rw [hlength] at hlast
    subst hlast
    refine ⟨_, _, _, hday.nextYear (Nat.lt_of_le_of_ne hyear' ?_)⟩
    rintro rfl
    have hend := daysBeforeMonth_december maxYear
    have hlastDay : lastDay = daysBeforeYear maxYear + daysInYear maxYear :=
      daysBeforeYear_succ hyear
    omega

/-! ## Days of weeks -/

/-- A day of a week, one for Monday. The Thursday of the week tells the year of the week, and which
one of the year's Thursdays it is. -/
structure IsWeekDay (year week day n : Nat) : Prop where
  weekday_eq : weekday n + 1 = day
  exists_day : ∃ y m d, IsDay y m d n
  thursday : ∃ first month d, IsDay year 1 1 first ∧ IsDay year month d (n + 4 - day) ∧
    (n + 4 - day - first) / 7 + 1 = week

theorem isDay_first_iff {first : Nat} : IsDay year 1 1 first ↔
    1 ≤ year ∧ year ≤ maxYear ∧ first = daysBeforeYear year + 1 := by
  have hjanuary : daysBeforeMonth year 1 = 0 := rfl
  have hpos := daysInMonth_pos year 1
  rw [isDay_iff, dayOf?_eq_some_iff, hjanuary]
  omega

/-- A number is that of a day of one year only. -/
theorem IsDay.of_mem_year (h₁ : 1 ≤ year) (h₂ : year ≤ maxYear) (h₃ : daysBeforeYear year < n)
    (h₄ : n ≤ daysBeforeYear (year + 1)) : ∃ month day, IsDay year month day n := by
  have hend := daysBeforeYear_mono (Nat.le_succ_of_le h₁) (Nat.succ_le_succ h₂)
  obtain ⟨y, month, day, hday⟩ := exists_isDay (n := n) (by omega) (h₄.trans hend)
  obtain ⟨hy₁, hy₂, hy₃, hy₄⟩ := hday.mem_year
  have hle : y ≤ year := by
    by_contra hlt
    have hmono : daysBeforeYear (year + 1) ≤ daysBeforeYear y :=
      daysBeforeYear_mono (by omega) (by omega)
    omega
  have hge : year ≤ y := by
    by_contra hlt
    have hmono : daysBeforeYear (y + 1) ≤ daysBeforeYear year :=
      daysBeforeYear_mono (by omega) (by omega)
    omega
  obtain rfl := Nat.le_antisymm hle hge
  exact ⟨month, day, hday⟩

/-- The first week of a year has the first Thursday of the year. -/
theorem firstMonday_bounds (year : Nat) : weekday (firstMonday year) = 0 ∧
    daysBeforeYear year < firstMonday year + 3 ∧
    firstMonday year + 3 ≤ daysBeforeYear year + 7 := by
  by_cases hlate : 3 < weekday (daysBeforeYear year + 1) <;>
    simp only [firstMonday, hlate, if_true, if_false] <;> simp only [weekday] at * <;> omega

/-- A year has 53 weeks if it starts with a Thursday, or is a leap year that starts with a
Wednesday. -/
theorem hasLongWeeks_iff : hasLongWeeks year = true ↔ weekday (daysBeforeYear year + 1) = 3 ∨
    weekday (daysBeforeYear year + 1) = 2 ∧ isLeap year = true := by
  simp [hasLongWeeks]

/-- A year has as many weeks as Thursdays: 53 if it starts with one, or ends with one as it has a
leap day. -/
theorem thursday_le_iff (year : Nat) {week : Nat} (hweek : 1 ≤ week) :
    firstMonday year + (week - 1) * 7 + 3 ≤ daysBeforeYear year + daysInYear year ↔
      week ≤ 52 ∨ week = 53 ∧ hasLongWeeks year = true := by
  have hmonday := firstMonday_bounds year
  rw [hasLongWeeks_iff, daysInYear]
  simp only [weekday] at hmonday ⊢
  cases isLeap year <;>
    simp only [if_true, if_false, Bool.false_eq_true, and_true, and_false, or_false] <;> omega

/-- A day of a week has a number just if the week and the day exist. -/
theorem dayOfWeek?_eq_some_iff {week : Nat} : dayOfWeek? year week day = some n ↔
    (1 ≤ year ∧ year ≤ maxYear ∧ 1 ≤ week ∧ (week ≤ 52 ∨ week = 53 ∧ hasLongWeeks year = true) ∧
      1 ≤ day ∧ day ≤ 7) ∧ n ≤ lastDay ∧ n = firstMonday year + (week - 1) * 7 + (day - 1) := by
  rw [dayOfWeek?, Option.ite_none_right_eq_some]
  simp only [Option.ite_none_right_eq_some, Option.some.injEq]
  refine and_congr_right fun _ => ⟨?_, ?_⟩
  · rintro ⟨h, rfl⟩
    exact ⟨h, rfl⟩
  · rintro ⟨h, rfl⟩
    exact ⟨h, rfl⟩

/-- Weeks that are counted lead to the same day as those that are added up. -/
theorem isWeekDay_iff {week : Nat} :
    IsWeekDay year week day n ↔ dayOfWeek? year week day = some n := by
  have hmonday := firstMonday_bounds year
  rw [dayOfWeek?_eq_some_iff]
  constructor
  · rintro ⟨hweekday, ⟨y, m, d, hday⟩, _, month, d', hfirst, hthursday, hweek⟩
    obtain ⟨hyear, hyear', rfl⟩ := isDay_first_iff.1 hfirst
    obtain ⟨-, -, hafter, hbefore⟩ := hthursday.mem_year
    obtain ⟨hy, hy', -, hn⟩ := hday.mem_year
    have hlast : n ≤ lastDay := hn.trans (daysBeforeYear_mono (by omega) (by omega))
    simp only [weekday] at hweekday hmonday
    have heq : n = firstMonday year + (week - 1) * 7 + (day - 1) := by omega
    have hpos : 1 ≤ week := by omega
    have hlong := thursday_le_iff year hpos
    rw [daysBeforeYear_succ hyear] at hbefore
    exact ⟨⟨hyear, hyear', hpos, hlong.1 (by omega), by omega, by omega⟩, hlast, heq⟩
  · rintro ⟨⟨hyear, hyear', hweek, hlong, hday, hday'⟩, hlast, heq⟩
    have hbefore := (thursday_le_iff year hweek).2 hlong
    have hthursday : n + 4 - day = firstMonday year + (week - 1) * 7 + 3 := by omega
    simp only [weekday] at hmonday
    obtain ⟨month, d, hd⟩ := IsDay.of_mem_year (n := n + 4 - day) hyear hyear' (by omega)
      (by rw [daysBeforeYear_succ hyear]; omega)
    refine ⟨?_, exists_isDay ?_ hlast, _, month, d, isDay_first_iff.2 ⟨hyear, hyear', rfl⟩, hd, ?_⟩
    · rw [weekday]
      omega
    · omega
    · omega

end

end PanelExport.Calendar
