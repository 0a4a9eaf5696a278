import Mailshot.Instant.Basic
import Mailshot.Json.Basic
import Mailshot.Text.Digit

/-!
# TOML scalars

Truth values, integers, numbers with a fraction or an exponent, and dates.  Digits may have single
underscores between them.  Integers have 64 bits with a sign.  Dates and times of day are kept as
their canonical text.
-/

namespace Mailshot.Toml

open Number (Binary64)
open Text (isDigit ofDigits hexDigit?)

/-- Digits with single underscores between them, without the underscores. -/
def grouped? (isGood : Char → Bool) : List Char → Option (List Char)
  | [] => none
  | [c] => if isGood c then some [c] else none
  | c :: '_' :: rest => if isGood c then (grouped? isGood rest).map (c :: ·) else none
  | c :: d :: rest => if isGood c then (grouped? isGood (d :: rest)).map (c :: ·) else none

/-- Decimal digits without a zero before others. -/
def whole? (cs : List Char) : Option (List Char) := do
  let ds ← grouped? isDigit cs
  if ds.head? = some '0' && 1 < ds.length then none else some ds

/-- A sign, whether it is a minus, and what follows. -/
def signed : List Char → Bool × List Char
  | '-' :: rest => (true, rest)
  | '+' :: rest => (false, rest)
  | cs => (false, cs)

/-- Digits of a base up to sixteen as a number. -/
def inBase? (base : Nat) (cs : List Char) : Option Nat := do
  let isGood (c : Char) : Bool := (hexDigit? c).any (· < base)
  let ds ← grouped? isGood cs
  let values ← ds.mapM hexDigit?
  return values.foldl (fun n d => n * base + d) 0

/-- An integer of any size. -/
def anyInteger? (cs : List Char) : Option Int :=
  match cs with
  | '0' :: 'x' :: rest => (inBase? 16 rest).map Int.ofNat
  | '0' :: 'o' :: rest => (inBase? 8 rest).map Int.ofNat
  | '0' :: 'b' :: rest => (inBase? 2 rest).map Int.ofNat
  | cs =>
    let (negative, body) := signed cs
    (whole? body).map fun ds => if negative then -(ofDigits ds : Int) else ofDigits ds

/-- An integer of 64 bits. -/
def integer? (cs : List Char) : Option Int := do
  let i ← anyInteger? cs
  if -9223372036854775808 ≤ i ∧ i ≤ 9223372036854775807 then some i else none

/-- An exponent: digits, with or without a sign. -/
def exponent? (cs : List Char) : Option Int := do
  let (negative, body) := signed cs
  let ds ← grouped? isDigit body
  return if negative then -(ofDigits ds : Int) else ofDigits ds

/-- What may stand among digits. -/
def isDigitOrJoint (c : Char) : Bool := isDigit c || c = '_'

/-- The digits after a point, if one follows, and what follows them. -/
def fraction? : List Char → Option (List Char × List Char)
  | '.' :: rest => (grouped? isDigit (rest.takeWhile isDigitOrJoint)).map
      (·, rest.dropWhile isDigitOrJoint)
  | cs => some ([], cs)

/-- A number with a fraction, an exponent or both, or one of the names of what is not finite.  Too
great a number is none. -/
def number? (cs : List Char) : Option Binary64 := do
  let (negative, body) := signed cs
  if body = ['i', 'n', 'f'] then return .infinite negative
  if body = ['n', 'a', 'n'] then return .nan
  let whole ← whole? (body.takeWhile isDigitOrJoint)
  let (fraction, rest) ← fraction? (body.dropWhile isDigitOrJoint)
  let exponent ←
    match rest with
    | [] => if fraction.isEmpty then none else some 0
    | e :: more => if e = 'e' || e = 'E' then exponent? more else none
  match Binary64.ofDecimal negative (ofDigits (whole ++ fraction)) (exponent - fraction.length) with
  | .infinite _ => none
  | x => some x

/-! ### Dates -/

/-- A number of two digits up to a bound. -/
def pair? (high : Nat) : List Char → Option (Nat × List Char)
  | a :: b :: rest =>
    if isDigit a && isDigit b && ofDigits [a, b] ≤ high then some (ofDigits [a, b], rest) else none
  | _ => none

/-- A date in digits and hyphens. -/
def date? : List Char → Option (List Char × List Char)
  | a :: b :: c :: d :: '-' :: e :: f :: '-' :: g :: h :: rest =>
    if [a, b, c, d, e, f, g, h].all isDigit then
      let date : Date := ⟨ofDigits [a, b, c, d], ofDigits [e, f], ofDigits [g, h]⟩
      if date.isValid then some ([a, b, c, d, '-', e, f, '-', g, h], rest) else none
    else none
  | _ => none

/-- The digits of a fraction that count: nine at most, without zeros at the end. -/
def significant (ds : List Char) : List Char :=
  ((ds.take 9).reverse.dropWhile (· = '0')).reverse

/-- A time of day in digits and colons, with the fraction of a second in as few digits as it needs.
-/
def time? (cs : List Char) : Option (List Char × List Char) :=
  match cs with
  | a :: b :: ':' :: c :: d :: ':' :: e :: f :: rest => do
    let _ ← pair? 23 [a, b]
    let _ ← pair? 59 [c, d]
    let _ ← pair? 60 [e, f]
    let (digits, rest) ←
      match rest with
      | '.' :: more =>
        let ds := more.takeWhile isDigit
        if ds.isEmpty then none else some (ds, more.dropWhile isDigit)
      | more => some ([], more)
    let kept := significant digits
    return ([a, b, ':', c, d, ':', e, f] ++ (if kept.isEmpty then [] else '.' :: kept), rest)
  | _ => none

/-- An offset from UTC, if one follows.  One of nothing is positive. -/
def offset? : List Char → Option (List Char)
  | [] => some []
  | [c] => if c = 'Z' || c = 'z' then some ['Z'] else none
  | [sign, a, b, ':', c, d] => do
    let (hours, _) ← pair? 23 [a, b]
    let (minutes, _) ← pair? 59 [c, d]
    let sign := if hours = 0 ∧ minutes = 0 then '+' else sign
    if sign = '+' || sign = '-' then some [sign, a, b, ':', c, d] else none
  | _ => none

/-- The canonical text of a date, a time of day, or both with or without an offset. -/
def moment? (cs : List Char) : Option (List Char) :=
  match date? cs with
  | some (date, []) => some date
  | some (date, c :: rest) =>
    if c = 'T' || c = 't' || c = ' ' then do
      let (time, rest) ← time? rest
      let offset ← offset? rest
      return date ++ 'T' :: time ++ offset
    else none
  | none =>
    match time? cs with
    | some (time, []) => some time
    | _ => none

/-- May the character stand in a scalar? -/
def isScalar (c : Char) : Bool :=
  isDigit c || ('a' ≤ c && c ≤ 'z') || ('A' ≤ c && c ≤ 'Z') || c = '+' || c = '-' || c = '.'
    || c = '_' || c = ':'

/-- The value of a whole scalar. -/
def ofScalar? (cs : List Char) : Option Json :=
  if cs = ['t', 'r', 'u', 'e'] then some (.bool true)
  else if cs = ['f', 'a', 'l', 's', 'e'] then some (.bool false)
  else
    match integer? cs with
    | some i => some (.int i)
    | none =>
      match number? cs with
      | some x => some (.double x)
      | none => (moment? cs).map fun text => .text (String.ofList text)

/-- Does a time of day follow a date and a blank? -/
def continuesDate (token rest : List Char) : Bool :=
  match date? token, rest with
  | some (_, []), ' ' :: a :: b :: ':' :: _ => isDigit a && isDigit b
  | _, _ => false

/-- A scalar off the front of a text. -/
def scalar? (cs : List Char) : Option (Json × List Char) :=
  let token := cs.takeWhile isScalar
  let rest := cs.dropWhile isScalar
  if continuesDate token rest then
    let more := rest.drop 1
    (ofScalar? (token ++ ' ' :: more.takeWhile isScalar)).map (·, more.dropWhile isScalar)
  else (ofScalar? token).map (·, rest)

end Mailshot.Toml
