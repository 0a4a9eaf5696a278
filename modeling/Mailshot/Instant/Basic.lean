/-!
# Instants

Points in time by their date and time of day in UTC, to the nanosecond.  A leap second is a second
with a thousand million nanoseconds or more.  Dates are those of the Gregorian calendar, extended
both ways, from year -262143 to year 262142.

* `Date.next?`, `Date.previous?`: the neighbouring days;
* `Instant.shift?`: the same point, written with an offset of less than a day, in UTC;
* `Instant.before`: earlier and later.
-/

namespace Mailshot

/-- A day of the calendar. -/
structure Date where
  year : Int
  month : Nat
  day : Nat
  deriving DecidableEq, Repr, Inhabited

namespace Date

/-- The first and the last year. -/
def firstYear : Int := -262143
def lastYear : Int := 262142

/-- Every fourth year is a leap year, but of the full centuries only every fourth. -/
def isLeap (year : Int) : Bool :=
  year % 4 = 0 && (year % 100 ≠ 0 || year % 400 = 0)

/-- The number of days of a month. -/
def daysIn (year : Int) (month : Nat) : Nat :=
  if month = 2 then (if isLeap year then 29 else 28)
  else if month = 4 || month = 6 || month = 9 || month = 11 then 30
  else 31

/-- Is there such a day? -/
def isValid (d : Date) : Bool :=
  firstYear ≤ d.year && d.year ≤ lastYear && 1 ≤ d.month && d.month ≤ 12
    && 1 ≤ d.day && d.day ≤ daysIn d.year d.month

/-- The day after. -/
def next? (d : Date) : Option Date :=
  let e : Date :=
    if d.day < daysIn d.year d.month then { d with day := d.day + 1 }
    else if d.month < 12 then { d with month := d.month + 1, day := 1 }
    else ⟨d.year + 1, 1, 1⟩
  if e.isValid then some e else none

/-- The day before. -/
def previous? (d : Date) : Option Date :=
  let e : Date :=
    if 1 < d.day then { d with day := d.day - 1 }
    else if 1 < d.month then { d with month := d.month - 1, day := daysIn d.year (d.month - 1) }
    else ⟨d.year - 1, 12, 31⟩
  if e.isValid then some e else none

/-- The day `n` days after. -/
def after (d : Date) : Nat → Date
  | 0 => d
  | n + 1 => ((d.next?).getD d).after n

end Date

/-- A point in time. -/
structure Instant where
  date : Date
  hour : Nat
  minute : Nat
  second : Nat
  nano : Nat
  deriving DecidableEq, Repr, Inhabited

namespace Instant

/-- The beginning of the year 1970. -/
def epoch : Instant := ⟨⟨1970, 1, 1⟩, 0, 0, 0, 0⟩

/-- A full second in nanoseconds. -/
def secondNanos : Nat := 1000000000

/-- The second of the day. -/
def secondOfDay (t : Instant) : Nat := (t.hour * 60 + t.minute) * 60 + t.second

/-- A day in seconds. -/
def daySeconds : Nat := 86400

/-- The second `s` of a day, nanoseconds kept. -/
def atSecond (date : Date) (s nano : Nat) : Instant :=
  ⟨date, s / 3600, s / 60 % 60, s % 60, nano⟩

/-- The point whose clock stands at `t` where clocks are `offset` seconds ahead of UTC; `offset` is
less than a day either way. -/
def shift? (t : Instant) (offset : Int) : Option Instant :=
  let s : Int := t.secondOfDay - offset
  if s < 0 then (t.date.previous?).map (atSecond · (s + daySeconds).toNat t.nano)
  else if daySeconds ≤ s then (t.date.next?).map (atSecond · (s - daySeconds).toNat t.nano)
  else some (atSecond t.date s.toNat t.nano)

/-- The point `seconds` whole seconds after the epoch. -/
def ofEpochSeconds (seconds : Nat) (nano : Nat) : Instant :=
  atSecond (epoch.date.after (seconds / daySeconds)) (seconds % daySeconds) nano

/-- The fields from the coarsest to the finest. -/
def key (t : Instant) : List Int :=
  [t.date.year, t.date.month, t.date.day, t.hour, t.minute, t.second, t.nano]

/-- Is the first point earlier than the second? -/
def before (a b : Instant) : Bool := a.key < b.key

end Instant

end Mailshot
