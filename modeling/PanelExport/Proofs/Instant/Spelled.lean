import Mathlib.Data.List.Basic
import Mathlib.Data.List.TakeWhile
import PanelExport.Instant.Iso
import PanelExport.Proofs.Instant.Days

/-!
# The spellings of an instant

How an instant is written: a date by month and day or by week and weekday, perhaps a time of day
down to the minute, the second or a fraction of it, and perhaps an offset from universal time, each
in the extended form, with hyphens and colons, or in the basic form. What is written is the day that
the calendar counts, the time of day and the offset. Each of these texts is read as the instant that
they add up to.

* `SpellsDay`, `SpellsClock`, `SpellsOffset`, `SpellsInstant`: the texts and what they stand for.
* `readDate?_spelled`, `readClock_spelled`, `readTime?_spelled`: the parts are read.
* `readInstant?_spelled`: the whole text is read.
-/

namespace PanelExport.Instant

open PanelExport.Calendar

/-! ## What is written -/

/-- The number that some digits are. -/
def valueOf (ds : List Char) : Nat := ds.foldl (fun v c => 10 * v + (c.toNat - '0'.toNat)) 0

/-- A number in so many digits. -/
structure IsNumeral (size n : Nat) (ds : List Char) : Prop where
  length : ds.length = size
  digits : ∀ c ∈ ds, isAsciiDigit c = true
  value : valueOf ds = n

instance (size n : Nat) (ds : List Char) : Decidable (IsNumeral size n ds) :=
  decidable_of_iff (ds.length = size ∧ ds.all isAsciiDigit = true ∧ valueOf ds = n)
    ⟨fun ⟨hlength, hdigits, hvalue⟩ => ⟨hlength, List.all_eq_true.1 hdigits, hvalue⟩,
      fun h => ⟨h.length, List.all_eq_true.2 h.digits, h.value⟩⟩

/-- A mark that only the extended form has. -/
def mark (extended : Bool) (c : Char) : List Char := if extended then [c] else []

/-- A date: a day by month and day, by week and weekday, or the Monday of a week. -/
inductive SpellsDay : List Char → Nat → Prop where
  | calendar {year month day n : Nat} {ys ms ds : List Char} (extended : Bool)
      (hyear : IsNumeral 4 year ys) (hmonth : IsNumeral 2 month ms) (hday : IsNumeral 2 day ds)
      (isDay : IsDay year month day n) :
      SpellsDay (ys ++ (mark extended '-' ++ (ms ++ (mark extended '-' ++ ds)))) n
  | weekday {year week day n : Nat} {ys ws ds : List Char} (extended : Bool)
      (hyear : IsNumeral 4 year ys) (hweek : IsNumeral 2 week ws) (hday : IsNumeral 1 day ds)
      (isDay : IsWeekDay year week day n) :
      SpellsDay (ys ++ (mark extended '-' ++ 'W' :: (ws ++ (mark extended '-' ++ ds)))) n
  | week {year week n : Nat} {ys ws : List Char} (extended : Bool) (hyear : IsNumeral 4 year ys)
      (hweek : IsNumeral 2 week ws) (isDay : IsWeekDay year week 1 n) :
      SpellsDay (ys ++ (mark extended '-' ++ 'W' :: ws)) n

/-- A time of day, or the size of an offset. Of a fraction the first six digits count, and missing
ones are zeros. -/
inductive SpellsClock : List Char → Clock → Prop where
  | hour {hour : Nat} {hs : List Char} (hhour : IsNumeral 2 hour hs) :
      SpellsClock hs ⟨hour, 0, 0, 0⟩
  | minute {hour minute : Nat} {hs ms : List Char} (extended : Bool) (hhour : IsNumeral 2 hour hs)
      (hminute : IsNumeral 2 minute ms) :
      SpellsClock (hs ++ (mark extended ':' ++ ms)) ⟨hour, minute, 0, 0⟩
  | second {hour minute second : Nat} {hs ms ss : List Char} (extended : Bool)
      (hhour : IsNumeral 2 hour hs) (hminute : IsNumeral 2 minute ms)
      (hsecond : IsNumeral 2 second ss) :
      SpellsClock (hs ++ (mark extended ':' ++ (ms ++ (mark extended ':' ++ ss))))
        ⟨hour, minute, second, 0⟩
  | fraction {hour minute second micro : Nat} {hs ms ss fs : List Char} {point : Char}
      (extended : Bool) (hhour : IsNumeral 2 hour hs) (hminute : IsNumeral 2 minute ms)
      (hsecond : IsNumeral 2 second ss) (isPoint : point = '.' ∨ point = ',') (nonempty : fs ≠ [])
      (digits : ∀ c ∈ fs, isAsciiDigit c = true)
      (hmicro : IsNumeral 6 micro ((fs ++ List.replicate 6 '0').take 6)) :
      SpellsClock (hs ++ (mark extended ':' ++ (ms ++ (mark extended ':' ++ (ss ++ point :: fs)))))
        ⟨hour, minute, second, micro⟩

/-- An offset from universal time: none, the zone letter, or less than a day with a sign. -/
inductive SpellsOffset : List Char → Int → Prop where
  | none : SpellsOffset [] 0
  | zone : SpellsOffset ['Z'] 0
  | signed {sign : Char} {cs : List Char} {k : Clock} (isSign : isOffsetSign sign = true)
      (clock : SpellsClock cs k) (whole : k.seconds = 0 → k.micro = 0)
      (within : k.micros < 86400 * 1000000) :
      SpellsOffset (sign :: cs) (if sign = '-' then -k.micros else k.micros)

/-- A text that stands for an instant. Between the date and the time of day is any character but a
digit or the zone letter. -/
inductive SpellsInstant : List Char → Int → Prop where
  | date {ds : List Char} {n : Nat} (day : SpellsDay ds n) :
      SpellsInstant ds (((n : Int) - epochDay) * dayMicros)
  | time {ds cs zs : List Char} {n : Nat} {k : Clock} {offset : Int} {separator : Char}
      (day : SpellsDay ds n) (apart : isAsciiDigit separator = false) (unzoned : separator ≠ 'Z')
      (clock : SpellsClock cs k) (inDay : k.isTimeOfDay = true) (shift : SpellsOffset zs offset) :
      SpellsInstant (ds ++ separator :: (cs ++ zs))
        (((n : Int) - epochDay) * dayMicros + k.micros - offset)

/-! ## Digits -/

section

variable {size n : Nat} {ds rest : List Char}

theorem takeDigits_append (h : IsNumeral size n ds) (rest : List Char) :
    takeDigits size (ds ++ rest) = some (n, rest) := by
  have hall : ds.all isAsciiDigit = true := List.all_eq_true.2 h.digits
  have hvalue := h.value
  rw [valueOf] at hvalue
  simp only [takeDigits, List.take_left' h.length, List.drop_left' h.length, h.length, hall, and_self,
    if_true, hvalue]

theorem IsNumeral.exists_cons (h : IsNumeral (size + 1) n ds) :
    ∃ d ds', ds = d :: ds' ∧ isAsciiDigit d = true ∧ ds'.length = size := by
  obtain ⟨d, ds', rfl⟩ := List.exists_cons_of_length_eq_add_one h.length
  exact ⟨d, ds', rfl, h.digits d (List.mem_cons_self ..), by simpa using h.length⟩

theorem IsNumeral.two (h : IsNumeral 2 n ds) :
    ∃ a b, ds = [a, b] ∧ isAsciiDigit a = true ∧ isAsciiDigit b = true := by
  obtain ⟨a, b, rfl⟩ := List.length_eq_two.1 h.length
  exact ⟨a, b, rfl, h.digits a (by simp), h.digits b (by simp)⟩

theorem exists_four {cs : List Char} (h : cs.length = 4) : ∃ a b c d, cs = [a, b, c, d] := by
  obtain ⟨a, cs, rfl⟩ := List.exists_cons_of_length_eq_add_one h
  obtain ⟨b, c, d, rfl⟩ := List.length_eq_three.1 (Nat.succ.inj h)
  exact ⟨a, b, c, d, rfl⟩

theorem ne_of_not_digit {c d : Char} (hd : isAsciiDigit d = true)
    (hc : isAsciiDigit c = false) : d ≠ c := by
  rintro rfl
  simp [hc] at hd

/-- A number starts with no mark. -/
theorem takeChar?_numeral (h : IsNumeral (size + 1) n ds) {c : Char} (hc : isAsciiDigit c = false)
    (rest : List Char) : takeChar? c (ds ++ rest) = none := by
  obtain ⟨d, ds', rfl, hd, -⟩ := h.exists_cons
  simp [takeChar?, ne_of_not_digit hd hc]

theorem takeChar?_cons (c : Char) (cs : List Char) : takeChar? c (c :: cs) = some cs := by
  simp [takeChar?]

end

/-! ## Dates -/

theorem readDate?_spelled {ds : List Char} {n : Nat} (h : SpellsDay ds n) (rest : List Char) :
    readDate? ds.length (ds ++ rest) = some n := by
  have hhyphen : isAsciiDigit '-' = false := by decide
  have hletter : isAsciiDigit 'W' = false := by decide
  cases h with
  | @calendar year month day n ys ms ds extended hyear hmonth hday isDay =>
    have hday? := isDay_iff.1 isDay
    cases extended <;>
      simp [readDate?, mark, List.append_assoc, takeDigits_append hyear, takeDigits_append hmonth,
        takeDigits_append hday, takeChar?_numeral hmonth hhyphen, takeChar?_numeral hmonth hletter,
        takeChar?_cons, hday?]
  | @weekday year week day n ys ws ds extended hyear hweek hday isDay =>
    have hday? := isWeekDay_iff.1 isDay
    have hy := hyear.length
    have hw := hweek.length
    have hd := hday.length
    cases extended <;>
      simp [readDate?, readWeek?, mark, takeDigits_append hyear, takeDigits_append hweek,
        takeDigits_append hday, hday?, hy, hw, hd, takeChar?]
  | @week year week n ys ws extended hyear hweek isDay =>
    have hday? := isWeekDay_iff.1 isDay
    have hy := hyear.length
    have hw := hweek.length
    cases extended <;>
      simp [readDate?, readWeek?, mark, takeDigits_append hyear, takeDigits_append hweek, hday?, hy,
        hw, takeChar?]

/-- What may stand behind a date: nothing, or a separator and the two digits of an hour. -/
inductive Follows : List Char → Prop where
  | nothing : Follows []
  | time {separator a b : Char} {cs : List Char} (apart : isAsciiDigit separator = false)
      (first : isAsciiDigit a = true) (second : isAsciiDigit b = true) :
      Follows (separator :: a :: b :: cs)

/-- The length of a date is found, whatever follows. -/
theorem dateSize?_spelled {ds rest : List Char} {n : Nat} (h : SpellsDay ds n) (hr : Follows rest) :
    dateSize? (ds ++ rest) = some ds.length := by
  have hhyphen : isAsciiDigit '-' = false := by decide
  have hletter : isAsciiDigit 'W' = false := by decide
  cases h with
  | @calendar year month day n ys ms ds extended hyear hmonth hday isDay =>
    obtain ⟨y₁, y₂, y₃, y₄, rfl⟩ := exists_four hyear.length
    obtain ⟨m₁, m₂, rfl, hm, -⟩ := hmonth.two
    obtain ⟨d₁, d₂, rfl, -⟩ := hday.two
    have hm' := ne_of_not_digit hm hletter
    have hm'' := ne_of_not_digit hm hhyphen
    cases extended <;> simp [dateSize?, mark, hm', hm'']
  | @weekday year week day n ys ws ds extended hyear hweek hday isDay =>
    obtain ⟨y₁, y₂, y₃, y₄, rfl⟩ := exists_four hyear.length
    obtain ⟨w₁, w₂, rfl, -⟩ := hweek.two
    obtain ⟨d, ds', rfl, hd, hlength⟩ := hday.exists_cons
    obtain rfl := List.eq_nil_of_length_eq_zero hlength
    cases hr with
    | nothing => cases extended <;> simp [dateSize?, mark, hd]
    | time apart first second => cases extended <;> simp [dateSize?, mark, hd, apart]
  | @week year week n ys ws extended hyear hweek isDay =>
    obtain ⟨y₁, y₂, y₃, y₄, rfl⟩ := exists_four hyear.length
    obtain ⟨w₁, w₂, rfl, -⟩ := hweek.two
    cases hr with
    | nothing => cases extended <;> simp [dateSize?, mark]
    | time apart first second => cases extended <;> simp [dateSize?, mark, apart, second]

/-! ## Times of day -/

section

variable {behind : Bool} {k : Clock} {colons? : Option Bool} {fields field n : Nat}
  {ds rest : List Char}

/-- The last field of a clock. -/
theorem readFields_last (h : IsNumeral 2 n ds) :
    readFields behind k colons? (fields + 1) field ds = some (k.put field n, behind) := by
  have hdigits := takeDigits_append h []
  rw [List.append_nil] at hdigits
  simp [readFields, hdigits]

/-- A field of a clock with another one behind it, in the form that the clock has. -/
theorem readFields_next {extended : Bool} {m : Nat} {ms : List Char} (h : IsNumeral 2 n ds)
    (hnext : IsNumeral 2 m ms) (hcolons : colons?.getD extended = extended) :
    readFields behind k colons? (fields + 1) field (ds ++ (mark extended ':' ++ (ms ++ rest))) =
      readFields behind (k.put field n) (some extended) fields (field + 1) (ms ++ rest) := by
  obtain ⟨a, b, rfl, ha, -⟩ := hnext.two
  have hcolon := ne_of_not_digit ha (c := ':') (by decide)
  have hpoint := ne_of_not_digit ha (c := '.') (by decide)
  have hcomma := ne_of_not_digit ha (c := ',') (by decide)
  cases extended with
  | true => simp [readFields, takeDigits_append h, mark, hcolons]
  | false =>
    simp [readFields, takeDigits_append h, mark, beq_eq_false_iff_ne.2 hcolon, hpoint, hcomma,
      hcolons]

/-- A fraction of a second behind a field. -/
theorem readFields_fraction {point : Char} {fs : List Char} (h : IsNumeral 2 n ds)
    (hpoint : point = '.' ∨ point = ',') (hne : fs ≠ []) :
    readFields behind k colons? (fields + 1) field (ds ++ point :: fs) =
      readFraction behind (k.put field n) fs := by
  have hcolon : point ≠ ':' := by rintro rfl; rcases hpoint with h | h <;> cases h
  simp [readFields, takeDigits_append h, hne, hcolon, hpoint]

theorem valueOf_zeros (ds : List Char) (k : Nat) :
    valueOf (ds ++ List.replicate k '0') = valueOf ds * 10 ^ k := by
  induction k with
  | zero => simp
  | succ k ih =>
    rw [List.replicate_succ', ← List.append_assoc, valueOf, List.foldl_append, ← valueOf, ih,
      List.foldl_cons, List.foldl_nil, Nat.sub_self, Nat.add_zero, Nat.pow_succ, Nat.mul_comm 10,
      Nat.mul_assoc]

/-- The digits of a fraction that count, filled up with zeros. -/
theorem readFraction_spelled {micro : Nat} {fs : List Char}
    (digits : ∀ c ∈ fs, isAsciiDigit c = true)
    (hmicro : IsNumeral 6 micro ((fs ++ List.replicate 6 '0').take 6)) :
    readFraction behind k fs = some ({ k with micro }, behind) := by
  obtain ⟨size, hsize⟩ : ∃ size, size = min 6 fs.length := ⟨_, rfl⟩
  have htake : fs.take 6 = fs.take size := by
    rw [hsize, List.take_eq_take_iff]
    omega
  have hzeros : min (6 - fs.length) 6 = 6 - size := by omega
  have hvalue := hmicro.value
  rw [List.take_append, List.take_replicate, htake, hzeros, valueOf_zeros] at hvalue
  have hnumeral : IsNumeral size (valueOf (fs.take size)) (fs.take size) :=
    ⟨by simp [hsize], fun c hc => digits c (List.mem_of_mem_take hc), rfl⟩
  have hdigits := takeDigits_append hnumeral (fs.drop size)
  rw [List.take_append_drop] at hdigits
  have hrest : (fs.drop size).dropWhile isAsciiDigit = [] :=
    List.dropWhile_eq_nil_iff.2 fun c hc => digits c (List.mem_of_mem_drop hc)
  simp [readFraction, ← hsize, hdigits, hrest, isFollowed, hvalue]

end

theorem readClock_spelled {cs : List Char} {k : Clock} (h : SpellsClock cs k) (behind : Bool) :
    readClock behind cs = some (k, behind) := by
  unfold readClock
  cases h with
  | hour hhour => exact readFields_last hhour
  | @minute hour minute hs ms extended hhour hminute =>
    rw [← List.append_nil ms, readFields_next hhour hminute rfl, List.append_nil]
    exact readFields_last hminute
  | @second hour minute second hs ms ss extended hhour hminute hsecond =>
    rw [readFields_next hhour hminute rfl, ← List.append_nil ss,
      readFields_next hminute hsecond rfl, List.append_nil]
    exact readFields_last hsecond
  | fraction extended hhour hminute hsecond isPoint nonempty digits hmicro =>
    rw [readFields_next hhour hminute rfl, readFields_next hminute hsecond rfl,
      readFields_fraction hsecond isPoint nonempty]
    exact readFraction_spelled digits hmicro

/-! ## Characters -/

/-- Digits and some marks. -/
def Over (marks cs : List Char) : Prop := ∀ c ∈ cs, isAsciiDigit c = true ∨ c ∈ marks

section

variable {marks cs cs' : List Char}

theorem Over.append (h : Over marks cs) (h' : Over marks cs') : Over marks (cs ++ cs') := fun c hc =>
  (List.mem_append.1 hc).elim (h c) (h' c)

theorem Over.cons {c : Char} (hc : c ∈ marks) (h : Over marks cs) : Over marks (c :: cs) := by
  intro d hd
  rcases List.mem_cons.1 hd with rfl | hd
  · exact .inr hc
  · exact h d hd

theorem IsNumeral.over {size n : Nat} (h : IsNumeral size n cs) : Over marks cs := fun c hc =>
  .inl (h.digits c hc)

theorem over_mark {c : Char} (extended : Bool) (hc : c ∈ marks) : Over marks (mark extended c) := by
  cases extended with
  | true => exact .cons hc nofun
  | false => exact nofun

end

/-- A date is made of digits, hyphens and the letter of a week. -/
theorem SpellsDay.over {ds : List Char} {n : Nat} (h : SpellsDay ds n) : Over ['-', 'W'] ds := by
  have hyphen (extended : Bool) : Over ['-', 'W'] (mark extended '-') := over_mark extended (by simp)
  cases h with
  | calendar extended hyear hmonth hday isDay =>
    exact hyear.over.append <| (hyphen extended).append <| hmonth.over.append <|
      (hyphen extended).append hday.over
  | weekday extended hyear hweek hday isDay =>
    exact hyear.over.append <| (hyphen extended).append <| .cons (by simp) <| hweek.over.append <|
      (hyphen extended).append hday.over
  | week extended hyear hweek isDay =>
    exact hyear.over.append <| (hyphen extended).append <| .cons (by simp) hweek.over

/-- A clock is made of digits, colons and points. -/
theorem SpellsClock.over {cs : List Char} {k : Clock} (h : SpellsClock cs k) :
    Over [':', '.', ','] cs := by
  have colon (extended : Bool) : Over [':', '.', ','] (mark extended ':') :=
    over_mark extended (by simp)
  cases h with
  | hour hhour => exact hhour.over
  | minute extended hhour hminute => exact hhour.over.append <| (colon extended).append hminute.over
  | second extended hhour hminute hsecond =>
    exact hhour.over.append <| (colon extended).append <| hminute.over.append <|
      (colon extended).append hsecond.over
  | fraction extended hhour hminute hsecond isPoint nonempty digits hmicro =>
    refine hhour.over.append <| (colon extended).append <| hminute.over.append <|
      (colon extended).append <| hsecond.over.append <| .cons ?_ fun c hc => .inl (digits c hc)
    rcases isPoint with rfl | rfl <;> simp

/-! ## Offsets -/

theorem exists_two_digits {cs : List Char} {k : Clock} (h : SpellsClock cs k) :
    ∃ a b more, cs = a :: b :: more ∧ isAsciiDigit a = true ∧ isAsciiDigit b = true := by
  have front {n : Nat} {hs rest : List Char} (hhour : IsNumeral 2 n hs) (hcs : cs = hs ++ rest) :
      ∃ a b more, cs = a :: b :: more ∧ isAsciiDigit a = true ∧ isAsciiDigit b = true := by
    obtain ⟨a, b, rfl, ha, hb⟩ := hhour.two
    exact ⟨a, b, rest, hcs, ha, hb⟩
  cases h with
  | hour hhour => exact front hhour (List.append_nil _).symm
  | minute extended hhour hminute => exact front hhour rfl
  | second extended hhour hminute hsecond => exact front hhour rfl
  | fraction extended hhour hminute hsecond isPoint nonempty digits hmicro => exact front hhour rfl

/-- The signs of offsets stand in no clock. -/
theorem SpellsClock.not_sign {cs : List Char} {k : Clock} (h : SpellsClock cs k) :
    ∀ c ∈ cs, (!isOffsetSign c) = true := by
  intro c hc
  rw [Bool.not_eq_true', isOffsetSign, Bool.or_eq_false_iff, beq_eq_false_iff_ne, beq_eq_false_iff_ne]
  rcases h.over c hc with hdigit | hmark
  · exact ⟨ne_of_not_digit hdigit (by decide), ne_of_not_digit hdigit (by decide)⟩
  · constructor <;> rintro rfl <;> simp at hmark

theorem offsetMicros?_spelled {k : Clock} (whole : k.seconds = 0 → k.micro = 0)
    (within : k.micros < 86400 * 1000000) (negative : Bool) :
    offsetMicros? negative k = some (if negative then -(k.micros : Int) else k.micros) := by
  unfold offsetMicros?
  by_cases hseconds : k.seconds = 0
  · have hmicros : k.micros = 0 := by rw [Clock.micros, hseconds, whole hseconds]
    rw [if_pos hseconds, hmicros]
    cases negative <;> rfl
  · rw [if_neg hseconds, if_pos within]

/-- A clock with an offset is read, if the zone letter is written as an offset. -/
theorem readTime?_spelled {cs zs : List Char} {k : Clock} {offset : Int} (h : SpellsClock cs k)
    (hday : k.isTimeOfDay = true) (hz : SpellsOffset zs offset) (hzone : 'Z' ∉ zs) :
    readTime? (cs ++ zs) = some (k.micros, offset) := by
  have htake (rest : List Char) : (cs ++ rest).takeWhile (!isOffsetSign ·) =
      cs ++ rest.takeWhile (!isOffsetSign ·) := List.takeWhile_append_of_pos h.not_sign
  have hdrop (rest : List Char) : (cs ++ rest).dropWhile (!isOffsetSign ·) =
      rest.dropWhile (!isOffsetSign ·) := List.dropWhile_append_of_pos h.not_sign
  rw [readTime?, htake, hdrop]
  cases hz with
  | none => simp [readClock_spelled h, hday]
  | zone => exact absurd (List.mem_singleton_self _) hzone
  | @signed sign cs' size isSign clock whole within =>
    simp [isSign, readClock_spelled h, readClock_spelled clock, hday,
      offsetMicros?_spelled whole within]

/-! ## Instants -/

theorem SpellsDay.length_le {ds : List Char} {n : Nat} (h : SpellsDay ds n) : 7 ≤ ds.length := by
  cases h with
  | calendar extended hyear hmonth hday isDay =>
    simp only [List.length_append, hyear.length, hmonth.length, hday.length]
    omega
  | weekday extended hyear hweek hday isDay =>
    simp only [List.length_append, List.length_cons, hyear.length, hweek.length, hday.length]
    omega
  | week extended hyear hweek isDay =>
    simp only [List.length_append, List.length_cons, hyear.length, hweek.length]
    omega

theorem SpellsDay.ne_nil {ds : List Char} {n : Nat} (h : SpellsDay ds n) : ds ≠ [] := by
  rintro rfl
  exact absurd h.length_le (by decide)

/-- A text that stands for an instant is read as the instant, if the zone letter is written as an
offset. -/
theorem readInstant?_spelled {cs : List Char} {t : Int} (h : SpellsInstant cs t)
    (hzone : 'Z' ∉ cs) : readInstant? cs = some t := by
  cases h with
  | @date _ n day =>
    have hsize := dateSize?_spelled day .nothing
    have hday := readDate?_spelled day []
    rw [List.append_nil] at hsize hday
    simp [readInstant?, Nat.not_lt.2 day.length_le, hsize, hday]
  | @time ds cs zs n k offset separator day apart unzoned clock inDay shift =>
    have hlength : 7 ≤ (ds ++ separator :: (cs ++ zs)).length := by
      rw [List.length_append]
      exact Nat.le_add_right_of_le day.length_le
    have hfollows : Follows (separator :: (cs ++ zs)) := by
      obtain ⟨a, b, more, rfl, ha, hb⟩ := exists_two_digits clock
      exact .time apart ha hb
    have hz : 'Z' ∉ zs := fun hz => hzone (by simp [hz])
    rw [readInstant?, if_neg (Nat.not_lt.2 hlength)]
    simp [dateSize?_spelled day hfollows, readDate?_spelled day,
      readTime?_spelled clock inDay shift hz]

end PanelExport.Instant
