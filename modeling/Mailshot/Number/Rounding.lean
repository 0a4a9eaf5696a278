/-!
# Rounding to 53 bits

A finite magnitude with a binary point, `mantissa * 2 ^ exponent`, and the one that lies nearest to
a quotient of natural numbers, a tie going to the even mantissa.  Everything is exact arithmetic on
natural numbers, so the statements about rounding need nothing but these definitions.

* `nearest`: a quotient to the nearest natural number;
* `Magnitude.ofRatio`: a quotient to 53 significant bits, never finer than `2 ^ (-1074)`;
* `Magnitude.add`, `Magnitude.mul`, `Magnitude.div`: one rounding after the exact operation.
-/

namespace Mailshot.Number

/-- The natural number nearest to `num / den`; halfway between two, the even one. -/
def nearest (num den : Nat) : Nat :=
  let q := num / den
  let r := num % den
  if 2 * r < den ∨ (2 * r = den ∧ q % 2 = 0) then q else q + 1

/-- The exponent `e` with `2 ^ e ≤ num / den < 2 ^ (e + 1)`, for positive `num` and `den`. -/
def binaryOrder (num den : Nat) : Int :=
  let e := (num.log2 : Int) - (den.log2 : Int)
  if den * Nat.pow 2 e.toNat ≤ num * Nat.pow 2 (-e).toNat then e else e - 1

/-- The number of significant bits. -/
def precision : Nat := 53

/-- The exponent of the finest step. -/
def leastExponent : Int := -1074

/-- The magnitude `mantissa * 2 ^ exponent`. -/
structure Magnitude where
  mantissa : Nat
  exponent : Int
  deriving DecidableEq, Repr, Inhabited

namespace Magnitude

/-- Zero. -/
def zero : Magnitude := ⟨0, 0⟩

/-- The numerator of the magnitude as a fraction. -/
def num (m : Magnitude) : Nat := m.mantissa * Nat.pow 2 m.exponent.toNat

/-- The denominator of the magnitude as a fraction, a power of two. -/
def den (m : Magnitude) : Nat := Nat.pow 2 (-m.exponent).toNat

/-- The exponent of the last place that a value of this size keeps. -/
def stepOf (num den : Nat) : Int :=
  max (binaryOrder num den - (precision - 1 : Nat)) leastExponent

/-- `num / den` to the nearest multiple of `2 ^ step`, as that multiple. -/
def multipleOf (num den : Nat) (step : Int) : Nat :=
  nearest (num * Nat.pow 2 (-step).toNat) (den * Nat.pow 2 step.toNat)

/-- `num / den` to 53 significant bits, for a positive `den`. -/
def ofRatio (num den : Nat) : Magnitude :=
  if num = 0 then zero
  else
    let step := stepOf num den
    let m := multipleOf num den step
    if m = Nat.pow 2 precision then ⟨Nat.pow 2 (precision - 1), step + 1⟩ else ⟨m, step⟩

/-- A natural number to 53 significant bits. -/
def ofNat (n : Nat) : Magnitude := ofRatio n 1

/-- The sum, rounded once. -/
def add (a b : Magnitude) : Magnitude :=
  ofRatio (a.num * b.den + b.num * a.den) (a.den * b.den)

/-- The product, rounded once. -/
def mul (a b : Magnitude) : Magnitude :=
  ofRatio (a.num * b.num) (a.den * b.den)

/-- The quotient by a magnitude that is not zero, rounded once. -/
def div (a b : Magnitude) : Magnitude :=
  ofRatio (a.num * b.den) (a.den * b.num)

/-- Is the first magnitude smaller than the second? -/
def less (a b : Magnitude) : Bool :=
  a.num * b.den < b.num * a.den

/-- The least natural number that is not below the magnitude. -/
def ceil (m : Magnitude) : Nat :=
  (m.num + (m.den - 1)) / m.den

/-- The nearest natural number, a half going up. -/
def round (m : Magnitude) : Nat :=
  (2 * m.num + m.den) / (2 * m.den)

end Magnitude

end Mailshot.Number
