import Mailshot.Text.Digit

/-!
# Whole numbers in decimal digits

Texts that stand for whole numbers: digits, at least one, with a sign before them where one is
allowed.  Leading zeros do not matter, and nothing else may stand in such a text.

* `Decimal.natTo`: a natural number up to a bound, and what is wrong with a text that is none;
* `Decimal.int?`: an integer within bounds.
-/

namespace Mailshot.Number.Decimal

open Text (isDigit ofDigits)

/-- What keeps a text from being a number. -/
inductive Flaw where
  | empty
  | invalidDigit
  | tooLarge
  deriving DecidableEq, Repr

/-- The wording of a flaw. -/
def Flaw.message : Flaw → String
  | .empty => "cannot parse integer from empty string"
  | .invalidDigit => "invalid digit found in string"
  | .tooLarge => "number too large to fit in target type"

/-- The number written by digits and nothing else. -/
def digits? (ds : List Char) : Option Nat :=
  if ds.isEmpty || !ds.all isDigit then none else some (ofDigits ds)

/-- What is left of a text without a plus sign before it. -/
def dropPlus : List Char → List Char
  | '+' :: rest => rest
  | cs => cs

/-- A natural number up to `high`, with or without a plus sign.  A digit that makes the number too
large is noticed before a later character that is no digit. -/
def natTo (high : Nat) (cs : List Char) : Except Flaw Nat :=
  if cs.isEmpty then .error .empty
  else
    let ds := dropPlus cs
    let good := ds.takeWhile isDigit
    if ds.isEmpty then .error .invalidDigit
    else if high < ofDigits good then .error .tooLarge
    else if good.length < ds.length then .error .invalidDigit
    else .ok (ofDigits good)

/-- An integer from `low` to `high`, with or without a sign. -/
def int? (low high : Int) (cs : List Char) : Option Int :=
  let n : Option Int :=
    match cs with
    | '-' :: rest => (digits? rest).map fun n => -n
    | cs => (digits? (dropPlus cs)).map fun n => n
  match n with
  | some i => if low ≤ i ∧ i ≤ high then some i else none
  | none => none

end Mailshot.Number.Decimal
