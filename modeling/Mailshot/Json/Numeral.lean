import Mailshot.Json.Basic
import Mailshot.Text.Digit

/-!
# JSON numerals

The value of a numeral from its digits.  An integer of 64 bits is that integer, except negative
zero; any other numeral is a binary64 number.  That number is computed from at most twenty leading
digits: the digits are rounded once, and once more when they are scaled by their power of ten.  A
numeral past the greatest finite number has no value.
-/

namespace Mailshot.Json

open Number (Binary64 Magnitude)
open Text (digitValue)

/-- The greatest unsigned and the least signed integer of 64 bits. -/
def greatestInt : Nat := 18446744073709551615
def leastInt : Int := -9223372036854775808

/-- A numeral as written: sign, digits before and after the point, exponent. -/
structure Numeral where
  negative : Bool
  whole : List Char
  fraction : Option (List Char)
  exponent : Option Int
  deriving Repr

/-- Leading digits with the power of ten that they count.  Digits are taken while the count stays
within 64 bits. -/
structure Leading where
  count : Nat := 0
  power : Int := 0
  full : Bool := false

/-- A digit before the point: once one did not fit, each raises the power instead. -/
def Leading.whole (l : Leading) (c : Char) : Leading :=
  let n := l.count * 10 + digitValue c
  if l.full || greatestInt < n then { l with power := l.power + 1, full := true }
  else { l with count := n }

/-- A digit after the point: once one did not fit, the others are passed over. -/
def Leading.fraction (l : Leading) (c : Char) : Leading :=
  let n := l.count * 10 + digitValue c
  if l.full || greatestInt < n then { l with full := true }
  else { l with count := n, power := l.power - 1 }

/-- Scales by a power of ten of at most 308 at a time. -/
def scale (x : Binary64) (power : Int) : Nat → Option Binary64
  | 0 => some x
  | n + 1 =>
    if power.natAbs ≤ 308 then
      let factor := Magnitude.ofNat (Nat.pow 10 power.natAbs)
      match (if 0 ≤ power then x.scaleUp factor else x.scaleDown factor) with
      | .infinite _ => none
      | y => some y
    else if x.isZero then some x
    else if 0 ≤ power then none
    else scale (x.scaleDown (Magnitude.ofNat (Nat.pow 10 308))) (power + 308) n

/-- The binary64 value of leading digits. -/
def Leading.value? (l : Leading) (negative : Bool) : Option Binary64 :=
  scale (Binary64.ofMagnitude negative (.ofNat l.count)) l.power 4

/-- The value of a numeral. -/
def Numeral.value? (n : Numeral) : Option Json :=
  let whole := n.whole.foldl Leading.whole {}
  match n.fraction, n.exponent with
  | none, none =>
    if whole.full then (whole.value? n.negative).map .double
    else if !n.negative then some (.int whole.count)
    else if 0 < whole.count ∧ leastInt ≤ -(whole.count : Int) then some (.int (-whole.count))
    else (whole.value? true).map .double
  | fraction, exponent =>
    let l := (fraction.getD []).foldl Leading.fraction { whole with full := false }
    let l := { l with power := l.power + exponent.getD 0 }
    (l.value? n.negative).map .double

end Mailshot.Json
