import PanelExport.Instant.Calendar
import PanelExport.Text.CharClass

/-!
# Instants from text

An instant is a number of microseconds since the start of 1970. Its text is a date, perhaps a
separator and a time of day, and perhaps an offset from universal time: in the extended form, with
separators, or in the basic form. The separator between date and time may be any character. A text
without an offset is in universal time.
-/

namespace PanelExport.Instant

open PanelExport.Calendar

/-! ## Dates -/

/-- An ASCII digit. -/
def isAsciiDigit (c : Char) : Bool := '0' ≤ c && c ≤ '9'

/-- The number that the next `n` digits are, and what follows them. -/
def takeDigits (n : Nat) (cs : List Char) : Option (Nat × List Char) :=
  let digits := cs.take n
  if digits.length = n ∧ digits.all isAsciiDigit then
    some (digits.foldl (fun v c => 10 * v + (c.toNat - '0'.toNat)) 0, cs.drop n)
  else none

/-- The text behind a character, if it starts with it. -/
def takeChar? (c : Char) : List Char → Option (List Char)
  | d :: cs => if d = c then some cs else none
  | [] => none

/-- The length of the date at the front of a text. A date by weeks may or may not have a weekday:
in the basic form an even number of digits behind the `W` includes one, and in the extended form
a hyphen behind the week is a separator if two digits would follow it. -/
def dateSize? (cs : List Char) : Option Nat :=
  if cs.length = 7 then some 7
  else if cs[4]? = some '-' then
    if cs[5]? = some 'W' then
      if cs[8]? = some '-' then
        if cs.length = 9 then none
        else some (if (cs[10]?).any isAsciiDigit then 8 else 10)
      else some 8
    else some 10
  else if cs[4]? = some 'W' then
    let digits := 7 + ((cs.drop 7).takeWhile isAsciiDigit).length
    some (if digits < 9 then digits else if digits % 2 = 0 then 7 else 8)
  else some 8

/-- A week, and a weekday if the date has room for it, in a year. -/
def readWeek? (year size used : Nat) (extended : Bool) (cs : List Char) : Option Nat := do
  let (week, rest) ← takeDigits 2 cs
  if used + 2 < size then
    let rest ← if extended then takeChar? '-' rest else some rest
    let (day, _) ← takeDigits 1 rest
    dayOfWeek? year week day
  else dayOfWeek? year week 1

/-- The day that a date of a given length is. -/
def readDate? (size : Nat) (cs : List Char) : Option Nat := do
  let (year, rest) ← takeDigits 4 cs
  let (extended, rest) := match takeChar? '-' rest with
    | some rest => (true, rest)
    | none => (false, rest)
  match takeChar? 'W' rest with
  | some rest => readWeek? year size (if extended then 6 else 5) extended rest
  | none =>
    let (month, rest) ← takeDigits 2 rest
    let rest ← if extended then takeChar? '-' rest else some rest
    let (day, _) ← takeDigits 2 rest
    dayOf? year month day

/-! ## Times of day -/

/-- A time of day, or the size of an offset. -/
structure Clock where
  hour : Nat
  minute : Nat
  second : Nat
  micro : Nat

/-- The seconds of a clock without the fraction. -/
def Clock.seconds (k : Clock) : Nat := k.hour * 3600 + k.minute * 60 + k.second

/-- The microseconds of a clock. -/
def Clock.micros (k : Clock) : Nat := k.seconds * 1000000 + k.micro

/-- What is read of a clock, and whether something stands behind it. -/
abbrev ClockReading := Option (Clock × Bool)

/-- Something other than the end stands at the front of a text, or behind it if it is empty. -/
def isFollowed (behind : Bool) : List Char → Bool
  | [] => behind
  | c :: _ => c != '\x00'

/-- A fraction of a second: at most six digits count, further ones are passed over. -/
def readFraction (behind : Bool) (k : Clock) (cs : List Char) : ClockReading := do
  let size := min 6 cs.length
  let (n, rest) ← takeDigits size cs
  let micro := n * Nat.pow 10 (6 - size)
  return ({ k with micro }, isFollowed behind (rest.dropWhile isAsciiDigit))

/-- A clock with one more field. -/
def Clock.put (k : Clock) : Nat → Nat → Clock
  | 0, n => { k with hour := n }
  | 1, n => { k with minute := n }
  | _, n => { k with second := n }

/-- The fields of a clock from the given one on. A colon behind the hour stands behind the minute
too; a point or a comma starts the fraction of a second behind any field. A single character that
nothing follows is left over. -/
def readFields (behind : Bool) (k : Clock) (colons? : Option Bool) (fields field : Nat)
    (cs : List Char) : ClockReading :=
  match fields with
  | 0 => readFraction behind k cs
  | fields + 1 => do
    let (n, rest) ← takeDigits 2 cs
    let k := k.put field n
    match rest with
    | [] => return (k, behind)
    | c :: more =>
      let colons := colons?.getD (c == ':')
      if more.isEmpty && c.toNat < 128 then return (k, c != '\x00')
      else if colons && c == ':' then readFields behind k (some colons) fields (field + 1) more
      else if c == '.' || c == ',' then readFraction behind k more
      else if colons then none
      else readFields behind k (some colons) fields (field + 1) (c :: more)

/-- A clock; `behind` tells whether something stands behind the text. -/
def readClock (behind : Bool) (cs : List Char) : ClockReading :=
  readFields behind ⟨0, 0, 0, 0⟩ none 3 0 cs

/-- A clock that shows a time of day. -/
def Clock.isTimeOfDay (k : Clock) : Bool :=
  k.hour < 24 && k.minute < 60 && k.second < 60

/-- The microseconds of an offset. An offset of no whole second is none, and a day is too much. -/
def offsetMicros? (negative : Bool) (k : Clock) : Option Int :=
  if k.seconds = 0 then some 0
  else if k.micros < 86400 * 1000000 then some (if negative then -k.micros else k.micros)
  else none

/-- A sign in front of an offset. -/
def isOffsetSign (c : Char) : Bool := c == '+' || c == '-'

/-- A time of day and the offset behind it, in microseconds. -/
def readTime? (cs : List Char) : Option (Nat × Int) := do
  let front := cs.takeWhile (!isOffsetSign ·)
  match cs.dropWhile (!isOffsetSign ·) with
  | [] =>
    let (k, followed) ← readClock false front
    if k.isTimeOfDay && !followed then return (k.micros, 0) else none
  | sign :: rest =>
    let (k, _) ← readClock true front
    let (size, followed) ← readClock false rest
    let offset ← offsetMicros? (sign == '-') size
    if k.isTimeOfDay && !followed then return (k.micros, offset) else none

/-! ## Instants -/

/-- The microseconds of a day. -/
def dayMicros : Int := 86400 * 1000000

/-- The instant that a text is, in microseconds since the start of 1970. -/
def readInstant? (cs : List Char) : Option Int := do
  if cs.length < 7 then none
  else
    let size ← dateSize? cs
    let day ← readDate? size cs
    let start := ((day : Int) - epochDay) * dayMicros
    match cs.drop size with
    | [] => return start
    | _ :: time =>
      let (micros, offset) ← readTime? time
      return start + micros - offset

end PanelExport.Instant
