import Mailshot.Number.Rounding

/-!
# How alike two texts are

Two characters match when they are equal and stand at nearly the same place.  The share of matching
characters in either text and the share of those that come in the same order make up how alike the
texts are, from 0 to 1, each step of the calculation rounded to 53 bits.

* `matching`: the matching characters, in the order of either text;
* `similarity`: how alike two texts are;
* `mostAlike?`: what a text was probably meant to be.
-/

namespace Mailshot.Text

open Number (Magnitude)

/-- Characters, each with whether it has found its match. -/
abbrev Marked := List (Char × Bool)

/-- Marks the first `c` without a mark among the places from `low` to before `high`, where the list
begins at `place`. -/
def mark? (c : Char) (low high : Nat) : Nat → Marked → Option Marked
  | _, [] => none
  | place, (d, found) :: rest =>
    if high ≤ place then none
    else if low ≤ place && c = d && !found then some ((d, true) :: rest)
    else (mark? c low high (place + 1) rest).map ((d, found) :: ·)

/-- The characters of a text, from place `i` on, that find a match no further than `range` away, and
the other text with its marks. -/
def pairUp (range : Nat) : Nat → List Char → Marked → List Char × Marked
  | _, [], other => ([], other)
  | i, c :: rest, other =>
    match mark? c (i - range) (i + range + 1) 0 other with
    | some other =>
      let (found, other) := pairUp range (i + 1) rest other
      (c :: found, other)
    | none => pairUp range (i + 1) rest other

/-- The matching characters in the order of the first text and in that of the second. -/
def matching (a b : List Char) : List Char × List Char :=
  let range := max a.length b.length / 2 - 1
  let (found, other) := pairUp range 0 a (b.map fun c => (c, false))
  (found, (other.filter (·.2)).map (·.1))

/-- The number of places where two lists differ. -/
def differences (a b : List Char) : Nat :=
  ((a.zip b).filter fun (c, d) => c ≠ d).length

/-- How alike two texts are. -/
def similarity (a b : List Char) : Magnitude :=
  if a.isEmpty && b.isEmpty then .ofNat 1
  else
    let (inFirst, inSecond) := matching a b
    let n := inFirst.length
    if n = 0 then .zero
    else
      let swaps := differences inFirst inSecond / 2
      let shares := (Magnitude.ofRatio n a.length).add (.ofRatio n b.length)
      (shares.add (.ofRatio (n - swaps) n)).div (.ofNat 3)

/-- Texts have to be more alike than this to be taken for each other. -/
def resemblance : Magnitude := .ofRatio 7 10

/-- The item whose text is most like a given one, if any is like it at all; of equally good ones the
last. -/
def mostAlike? (text : α → String) (given : String) (items : List α) : Option α :=
  (items.foldl (fun (best : Magnitude × Option α) item =>
    let s := similarity given.toList (text item).toList
    if s.less best.1 || !resemblance.less s then best else (s, some item)) (.zero, none)).2

end Mailshot.Text
