import Mailshot.Number.Decimal
import Mailshot.Settings.Layer

/-!
# Settings from the environment

Variables whose names begin with `CAMPAIGN_DISPATCH__`, in any case, are settings.  The rest of the
name is the key, with two underscores between its parts.  A value is read as a truth value, an
integer or a number where it spells one, and is a text otherwise.

* `Environment.value`: the value that a text spells;
* `Environment.layer`: all settings among some variables.
-/

namespace Mailshot.Environment

open Number (Binary64 Decimal.int?)
open Text (isDigit ofDigits)

/-- Where the names of settings begin, in lower case. -/
def opening : List Char := "campaign_dispatch__".toList

/-- Two underscores as a point. -/
def points : List Char → List Char
  | '_' :: '_' :: rest => '.' :: points rest
  | c :: rest => c :: points rest
  | [] => []

/-- The key of a variable, if it is a setting. -/
def key? (name : String) : Option String :=
  let cs := (lowerCase name).toList
  if opening.isPrefixOf cs then some (String.ofList (points (cs.drop opening.length))) else none

/-- The digits after a point, if one follows, and what follows them. -/
def fraction : List Char → List Char × List Char
  | '.' :: rest => (rest.takeWhile isDigit, rest.dropWhile isDigit)
  | cs => ([], cs)

/-- An exponent, none at all counting as zero. -/
def exponent? : List Char → Option Int
  | [] => some 0
  | e :: rest =>
    if e = 'e' || e = 'E' then
      match rest with
      | '-' :: ds => (Number.Decimal.digits? ds).map fun n => -n
      | '+' :: ds => (Number.Decimal.digits? ds).map fun n => n
      | ds => (Number.Decimal.digits? ds).map fun n => n
    else none

/-- The number that a text without a sign spells: digits with a point among them or not, and an
exponent or not; or a name of what is not finite, in any case. -/
def unsigned? (negative : Bool) (cs : List Char) : Option Binary64 :=
  let name := lowerCase (String.ofList cs)
  if name = "inf" || name = "infinity" then some (.infinite negative)
  else if name = "nan" then some .nan
  else
    let whole := cs.takeWhile isDigit
    let (places, rest) := fraction (cs.dropWhile isDigit)
    if whole.isEmpty && places.isEmpty then none
    else (exponent? rest).map fun e =>
      .ofDecimal negative (ofDigits (whole ++ places)) (e - places.length)

/-- The number that a text spells. -/
def number? : List Char → Option Binary64
  | '-' :: rest => unsigned? true rest
  | '+' :: rest => unsigned? false rest
  | cs => unsigned? false cs

/-- The value that a text spells. -/
def value (s : String) : Json :=
  let lower := lowerCase s
  if lower = "true" then .bool true
  else if lower = "false" then .bool false
  else
    match Decimal.int? (-9223372036854775808) 9223372036854775807 s.toList with
    | some i => .int i
    | none =>
      match number? s.toList with
      | some x => .double x
      | none => .text s

/-- The settings among variables, of equal keys the last one. -/
def layer (vars : List (String × String)) : Layer :=
  vars.foldl (fun found (name, text) =>
    match key? name with
    | some key => Table.put key (value text) found
    | none => found) []

end Mailshot.Environment
