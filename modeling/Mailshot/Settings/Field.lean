import Mailshot.Json.Basic
import Mailshot.Number.Decimal
import Mailshot.Settings.Layer
import Mailshot.Share

/-!
# Values of settings

A setting takes values of more kinds than its own: numbers are read from text, truth values from
numbers and words, text from anything with one spelling.  Only what has no sensible reading is
refused.

* `Field.text?`, `Field.count?`, `Field.flag?`: the readings;
* `Field.Flaw`: how a value can be wrong.
-/

namespace Mailshot.Field

open Number (Binary64 Decimal.natTo)

/-- How a value can be wrong. -/
inductive Flaw where
  /-- A value that cannot be read as the kind that its setting has. -/
  | kind
  /-- A value where a section should be. -/
  | shape
  deriving DecidableEq, Repr

/-- A text; numbers and truth values are spelt out, numbers without an exponent. -/
def text? : Json → Except Flaw String
  | .text s => .ok s
  | .bool b => .ok (if b then "true" else "false")
  | .int i => .ok (toString i)
  | .double x => .ok x.positional
  | _ => .error .kind

/-- The words for yes and no. -/
def word? (s : String) : Option Bool :=
  let s := lowerCase s
  if s = "true" || s = "on" || s = "yes" then some true
  else if s = "false" || s = "off" || s = "no" then some false
  else none

/-- A natural number of 64 bits: from a whole number, from the nearest one, from a truth value, or
from a text that spells one of them. -/
def wholeNumber? : Json → Except Flaw Nat
  | .int i => if 0 ≤ i then .ok i.toNat else .error .kind
  | .double x => .ok (x.roundToNat Share.limit)
  | .bool b => .ok (if b then 1 else 0)
  | .text s =>
    match word? s with
    | some b => .ok (if b then 1 else 0)
    | none => (Decimal.natTo Share.limit s.toList).mapError fun _ => .kind
  | _ => .error .kind

/-- A natural number up to a bound. -/
def count? (high : Nat) (v : Json) : Except Flaw Nat := do
  let n ← wholeNumber? v
  if n ≤ high then .ok n else .error .kind

/-- A truth value: also from a number, which is true unless it is zero, or from a text with a word
or with one of the digits for it. -/
def flag? : Json → Except Flaw Bool
  | .bool b => .ok b
  | .int i => .ok (i ≠ 0)
  | .double x => .ok (!x.isZero)
  | .text s =>
    if s = "1" then .ok true
    else if s = "0" then .ok false
    else
      match word? s with
      | some b => .ok b
      | none => .error .kind
  | _ => .error .kind

/-- The fields of a section by name: a table, or a list of the fields in their order. -/
def section? (names : List String) : Json → Except Flaw (String → Option Json)
  | .object ms => .ok fun name => Table.find name ms
  | .list items => .ok fun name => Table.find name (names.zip items)
  | _ => .error .shape

/-- A field that stands for `default` where it is missing. -/
def optional (get : String → Option Json) (name : String) (default : α)
    (read : Json → Except Flaw α) : Except Flaw α :=
  match get name with
  | some v => read v
  | none => .ok default

end Mailshot.Field
