import Mailshot.Number.Rounding

/-!
# Shares of an audience

An audience of `n` members is cut into one bucket for each variant, in order.  A variant of ratio
`r` is meant to get `n * r / 100` members, rounded up, from where the share meant for the one before
it ends; what lies past the end of the audience is nobody's, so rounding favours the earlier
variants. The share is computed in binary64, each operation rounded, and counts stop at the greatest
count of 64 bits.

* `Share.count`: the members meant for one variant;
* `Share.spans`: where the buckets start and end;
* `Share.partition`: the buckets.
-/

namespace Mailshot.Share

open Number (Magnitude)

/-- The greatest count of 64 bits. -/
def limit : Nat := 18446744073709551615

/-- A sum that stops at the greatest count. -/
def add (a b : Nat) : Nat := min limit (a + b)

/-- A hundred, for ratios are percentages. -/
def hundred : Magnitude := .ofNat 100

/-- The members meant for a variant of ratio `ratio` in an audience of `n`. -/
def count (n ratio : Nat) : Nat :=
  min limit (((Magnitude.ofNat n).mul (.ofNat ratio)).div hundred).ceil

/-- Where the bucket of each ratio starts and ends, when `taken` members are meant for variants
before. -/
def spansFrom (n taken : Nat) : List Nat → List (Nat × Nat)
  | [] => []
  | ratio :: rest =>
    let next := add taken (count n ratio)
    (min taken n, min n next) :: spansFrom n next rest

/-- Where the bucket of each ratio starts and ends. -/
def spans (n : Nat) (ratios : List Nat) : List (Nat × Nat) :=
  spansFrom n 0 ratios

/-- The members from `span.1` up to `span.2`. -/
def slice (audience : List α) (span : Nat × Nat) : List α :=
  (audience.drop span.1).take (span.2 - span.1)

/-- The buckets of an audience, one for each ratio. -/
def partition (audience : List α) (ratios : List Nat) : List (List α) :=
  (spans audience.length ratios).map (slice audience)

end Mailshot.Share
