import Mailshot.Instant.Basic
import Mailshot.Text.Blank
import Mailshot.Text.Digit

/-!
# Instants as text

Instants are written like `2024-01-02T03:04:05.500Z`: years outside four digits with a sign, as many
groups of three fraction digits as needed.  Reading follows RFC 3339 with some freedom: white space
before numbers and separators, one-digit fields, years of any length after a sign, any number of
fraction digits of which nine count, and the zone as an offset, as `Z` or as `UTC`.

* `Instant.toString`: the written form;
* `Instant.parse?`: the accepted forms.
-/

namespace Mailshot.Instant

open Text

/-- A number with at least `width` digits. -/
def padded (width n : Nat) : List Char :=
  let ds := Nat.toDigits 10 n
  List.replicate (width - ds.length) '0' ++ ds

/-- A year: four digits, or a sign and at least four digits. -/
def writeYear (year : Int) : List Char :=
  if 0 ≤ year ∧ year ≤ 9999 then padded 4 year.toNat
  else (if year < 0 then '-' else '+') :: padded 4 year.natAbs

/-- The fraction of a second in nanoseconds, in no more groups of three digits than it needs. -/
def writeFraction (nano : Nat) : List Char :=
  if nano = 0 then []
  else if nano % 1000000 = 0 then '.' :: padded 3 (nano / 1000000)
  else if nano % 1000 = 0 then '.' :: padded 6 (nano / 1000)
  else '.' :: padded 9 nano

/-- The written form; a leap second is second sixty. -/
def write (t : Instant) : List Char :=
  let leap := secondNanos ≤ t.nano
  let second := if leap then t.second + 1 else t.second
  let nano := if leap then t.nano - secondNanos else t.nano
  writeYear t.date.year ++ '-' :: padded 2 t.date.month ++ '-' :: padded 2 t.date.day
    ++ 'T' :: padded 2 t.hour ++ ':' :: padded 2 t.minute ++ ':' :: padded 2 second
    ++ writeFraction nano ++ ['Z']

/-- The written form as a string. -/
def toString (t : Instant) : String := String.ofList t.write

instance : ToString Instant := ⟨toString⟩

/-- The written form with the fraction in microseconds, whatever it is. -/
def toMicrosString (t : Instant) : String :=
  let whole := { t with nano := 0 }
  String.ofList (whole.write.dropLast ++ '.' :: padded 6 (t.nano / 1000) ++ ['Z'])

/-! ### Reading -/

/-- A number of one to `width` digits, white space before it, and the rest. -/
def readNumber (width : Nat) (cs : List Char) : Option (Nat × List Char) :=
  let cs := trimStart cs
  let ds := (cs.take width).takeWhile isDigit
  if ds.isEmpty then none else some (ofDigits ds, cs.drop ds.length)

/-- A number of any length. -/
def readLong (cs : List Char) : Option (Nat × List Char) :=
  let ds := cs.takeWhile isDigit
  if ds.isEmpty then none else some (ofDigits ds, cs.drop ds.length)

/-- A year: up to four digits, any number of digits after a sign. -/
def readYear (cs : List Char) : Option (Int × List Char) :=
  match trimStart cs with
  | '-' :: rest => (readLong rest).map fun (n, rest) => (-(n : Int), rest)
  | '+' :: rest => (readLong rest).map fun (n, rest) => ((n : Int), rest)
  | cs => (readNumber 4 cs).map fun (n, rest) => ((n : Int), rest)

/-- A separator, white space before it. -/
def readMark (mark : Char) (cs : List Char) : Option (List Char) :=
  match trimStart cs with
  | c :: rest => if c = mark then some rest else none
  | [] => none

/-- The mark between date and time. -/
def readMiddle : List Char → Option (List Char)
  | c :: rest => if c = 'T' || c = 't' || c = ' ' then some rest else none
  | [] => none

/-- The fraction of a second in nanoseconds, if there is one; digits past the ninth do not count. -/
def readFraction : List Char → Option (Nat × List Char)
  | '.' :: rest =>
    let ds := rest.takeWhile isDigit
    if ds.isEmpty then none
    else
      let kept := ds.take 9
      some (ofDigits kept * Nat.pow 10 (9 - kept.length), rest.drop ds.length)
  | cs => some (0, cs)

/-- The value of two digits. -/
def twoDigits? : List Char → Option (Nat × List Char)
  | a :: b :: rest => if isDigit a && isDigit b then some (ofDigits [a, b], rest) else none
  | _ => none

/-- An offset in seconds: a sign, two digits of hours, two of minutes, colons and white space
between them. -/
def readOffset : List Char → Option (Int × List Char)
  | c :: rest =>
    if c = 'Z' || c = 'z' then some (0, rest)
    else
      let sign? : Option Int :=
        if c = '+' then some 1
        else if c = '-' || c.toNat = 0x2212 then some (-1)
        else none
      match sign?, twoDigits? rest with
      | some sign, some (hours, rest) =>
        match twoDigits? (rest.dropWhile fun c => c = ':' || isBlank c) with
        | some (minutes, rest) =>
          if minutes < 60 then some (sign * ((hours * 60 + minutes) * 60), rest) else none
        | none => none
      | _, _ => none
  | [] => none

/-- A zone: the letters `UTC` in any case, or an offset. -/
def readZone (cs : List Char) : Option (Int × List Char) :=
  if (cs.take 3).map Char.toUpper = ['U', 'T', 'C'] then some (0, cs.drop 3) else readOffset cs

/-- The point of a clock reading, second sixty being a leap second. -/
def ofClock? (date : Date) (hour minute second nano : Nat) (offset : Int) : Option Instant :=
  if date.isValid && hour < 24 && minute < 60 && second ≤ 60
      && decide (-86400 < offset) && decide (offset < 86400) then
    let t : Instant :=
      if second = 60 then ⟨date, hour, minute, 59, nano + secondNanos⟩
      else ⟨date, hour, minute, second, nano⟩
    t.shift? offset
  else none

/-- The point that a text names. -/
def parseChars? (cs : List Char) : Option Instant := do
  let (year, cs) ← readYear cs
  let cs ← readMark '-' cs
  let (month, cs) ← readNumber 2 cs
  let cs ← readMark '-' cs
  let (day, cs) ← readNumber 2 cs
  let cs ← readMiddle cs
  let (hour, cs) ← readNumber 2 cs
  let cs ← readMark ':' cs
  let (minute, cs) ← readNumber 2 cs
  let cs ← readMark ':' cs
  let (second, cs) ← readNumber 2 cs
  let (nano, cs) ← readFraction cs
  let (offset, cs) ← readZone (trimStart cs)
  if (trimStart cs).isEmpty then ofClock? ⟨year, month, day⟩ hour minute second nano offset
  else none

/-- The point that a text names. -/
def parse? (s : String) : Option Instant :=
  parseChars? s.toList

end Mailshot.Instant
