import Mailshot.Number.Rounding

/-!
# Binary64 numbers

The numbers of the 64-bit binary interchange format with their decimal texts.  Reading rounds once
to the nearest number; writing gives the fewest digits that read back as the same number, of two
such texts the nearer one.

* `Binary64.ofDecimal`: digits and a power of ten to a number;
* `Binary64.shortest`: a number to its shortest digits and their power of ten;
* `Binary64.positional`: those digits without an exponent.
-/

namespace Mailshot.Number

/-- A number of the format. -/
inductive Binary64 where
  | finite (negative : Bool) (magnitude : Magnitude)
  | infinite (negative : Bool)
  | nan
  deriving DecidableEq, Repr, Inhabited

namespace Binary64

/-- The greatest exponent of a finite number with a full mantissa. -/
def greatestExponent : Int := 971

/-- A rounded magnitude with its sign; too great a one is infinite. -/
def ofMagnitude (negative : Bool) (m : Magnitude) : Binary64 :=
  if greatestExponent < m.exponent then .infinite negative else .finite negative m

/-- `digits * 10 ^ exponent`, rounded once.  The number of digits settles the far ends of the range
before any power of ten is formed. -/
def ofDecimal (negative : Bool) (digits : Nat) (exponent : Int) : Binary64 :=
  if digits = 0 then .finite negative .zero
  else
    let order : Int := (Nat.toDigits 10 digits).length + exponent
    if 400 < order then .infinite negative
    else if order < -400 then .finite negative .zero
    else ofMagnitude negative
      (.ofRatio (digits * Nat.pow 10 exponent.toNat) (Nat.pow 10 (-exponent).toNat))

/-- An integer, rounded once. -/
def ofInt (i : Int) : Binary64 :=
  ofMagnitude (i < 0) (.ofNat i.natAbs)

/-- Is the number zero, of either sign? -/
def isZero : Binary64 → Bool
  | .finite _ m => m.mantissa = 0
  | _ => false

/-- The product of a number and a magnitude, rounded once. -/
def scaleUp (x : Binary64) (m : Magnitude) : Binary64 :=
  match x with
  | .finite negative a => ofMagnitude negative (a.mul m)
  | other => other

/-- The quotient of a number by a magnitude that is not zero, rounded once. -/
def scaleDown (x : Binary64) (m : Magnitude) : Binary64 :=
  match x with
  | .finite negative a => ofMagnitude negative (a.div m)
  | other => other

/-- The nearest natural number up to `limit`, a half going away from zero; what is below zero or no
number counts as zero. -/
def roundToNat (limit : Nat) : Binary64 → Nat
  | .finite false m => min limit m.round
  | .finite true _ => 0
  | .infinite negative => if negative then 0 else limit
  | .nan => 0

/-! ### Shortest digits -/

/-- The values that round to `m * 2 ^ e` lie between `low` and `high`, all three as numerators over
one denominator; the ends belong to them when `m` is even. -/
structure Interval where
  low : Nat
  value : Nat
  high : Nat
  den : Nat
  closed : Bool

/-- The values that round to a positive magnitude.  Below a power of two the next number is only
half as far away. -/
def Interval.of (m : Magnitude) : Interval :=
  let scale := Nat.pow 2 m.exponent.toNat
  let den := 4 * Nat.pow 2 (-m.exponent).toNat
  let narrow := m.mantissa = Nat.pow 2 (precision - 1) ∧ leastExponent < m.exponent
  { low := (4 * m.mantissa - (if narrow then 1 else 2)) * scale
    value := 4 * m.mantissa * scale
    high := (4 * m.mantissa + 2) * scale
    den := den
    closed := m.mantissa % 2 = 0 }

/-- Does `digits * 10 ^ power` round to the magnitude? -/
def Interval.holds (i : Interval) (digits : Nat) (power : Int) : Bool :=
  let x := digits * Nat.pow 10 power.toNat * i.den
  let scale := Nat.pow 10 (-power).toNat
  if i.closed then i.low * scale ≤ x && x ≤ i.high * scale
  else i.low * scale < x && x < i.high * scale

/-- On the grid of multiples of `10 ^ power`, the neighbour of the value that rounds to it and lies
nearer; of two equally near ones the even one. -/
def Interval.onGrid? (i : Interval) (power : Int) : Option Nat :=
  let num := i.value * Nat.pow 10 (-power).toNat
  let den := i.den * Nat.pow 10 power.toNat
  let below := num / den
  let r := num % den
  let preferBelow := 2 * r < den || (2 * r = den && below % 2 = 0)
  let fits (d : Nat) := 0 < d && i.holds d power
  let (first, second) := if preferBelow then (below, below + 1) else (below + 1, below)
  if fits first then some first
  else if fits second then some second
  else none

/-- The least power `k` with `value < 10 ^ k`, searched upwards from a lower bound. -/
def Interval.orderFrom (i : Interval) : Nat → Int → Int
  | 0, k => k
  | n + 1, k =>
    if i.value * Nat.pow 10 (-k).toNat < i.den * Nat.pow 10 k.toNat then k
    else i.orderFrom n (k + 1)

/-- The first grid, from coarse to fine, with a point that rounds to the value. -/
def Interval.firstGrid (i : Interval) : Nat → Int → Option (Nat × Int)
  | 0, _ => none
  | n + 1, power =>
    match i.onGrid? power with
    | some d => some (d, power)
    | none => i.firstGrid n (power - 1)

/-- A factor ten off the digits for each zero they end in. -/
def dropZeros : Nat → Nat → Int → Nat × Int
  | 0, d, p => (d, p)
  | n + 1, d, p => if d % 10 = 0 ∧ d ≠ 0 then dropZeros n (d / 10) (p + 1) else (d, p)

/-- The shortest digits of a magnitude and the power of ten that they count. -/
def shortest (m : Magnitude) : Nat × Int :=
  if m.mantissa = 0 then (0, 0)
  else
    let i := Interval.of m
    -- 2 ^ 10 is a little more than 10 ^ 3: three tenths of the binary order bound the decimal one
    let order := (m.mantissa.log2 : Int) + m.exponent
    let k := i.orderFrom 700 (order * 3 / 10 - (if order < 0 then 12 else 1))
    match i.firstGrid 20 k with
    | some (d, p) => dropZeros 20 d p
    | none => (m.mantissa, 0)

/-- Digits and their power of ten, written without an exponent. -/
def writePositional (digits : Nat) (power : Int) : List Char :=
  let ds := Nat.toDigits 10 digits
  if digits = 0 then ['0']
  else if 0 ≤ power then ds ++ List.replicate power.toNat '0'
  else
    let places := (-power).toNat
    if ds.length ≤ places then
      ['0', '.'] ++ List.replicate (places - ds.length) '0' ++ ds
    else ds.take (ds.length - places) ++ '.' :: ds.drop (ds.length - places)

/-- The text of a number: the shortest digits without an exponent, a sign for negative numbers and
negative zero. -/
def positional : Binary64 → String
  | .finite negative m =>
    let (d, p) := shortest m
    String.ofList ((if negative then ['-'] else []) ++ writePositional d p)
  | .infinite negative => if negative then "-inf" else "inf"
  | .nan => "NaN"

end Binary64

end Mailshot.Number
