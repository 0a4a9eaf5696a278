import Mailshot.Json.Numeral

/-!
# JSON tokens

A text cut into brackets, marks and scalars.  White space between tokens is dropped; a character
that starts no token, an open string, a lone surrogate or a raw control character makes the whole
text unreadable.
-/

namespace Mailshot.Json

open Text (isDigit hexDigit? ofDigits)

/-- A token. -/
inductive Token where
  | openList
  | closeList
  | openObject
  | closeObject
  | comma
  | colon
  | scalar (value : Json)

namespace Token

/-- The value of four hexadecimal digits. -/
def hex4? (a b c d : Char) : Option Nat := do
  let p ← hexDigit? a
  let q ← hexDigit? b
  let r ← hexDigit? c
  let s ← hexDigit? d
  return ((p * 16 + q) * 16 + r) * 16 + s

/-- The character of a one-letter escape. -/
def plainEscape? (c : Char) : Option Char :=
  if c = '"' || c = '\\' || c = '/' then some c
  else if c = 'b' then some '\x08'
  else if c = 'f' then some '\x0c'
  else if c = 'n' then some '\n'
  else if c = 'r' then some '\r'
  else if c = 't' then some '\t'
  else none

/-- The rest of a string after its opening quote, and what follows the closing one.  `done` holds
the characters read so far, the last one first. -/
def scanText (done : List Char) : List Char → Option (String × List Char)
  | [] => none
  | '"' :: rest => some (String.ofList done.reverse, rest)
  | '\\' :: 'u' :: a :: b :: c :: d :: rest =>
    match hex4? a b c d with
    | none => none
    | some hi =>
      if 0xDC00 ≤ hi ∧ hi ≤ 0xDFFF then none
      else if 0xD800 ≤ hi ∧ hi ≤ 0xDBFF then
        match rest with
        | '\\' :: 'u' :: e :: f :: g :: h :: rest' =>
          match hex4? e f g h with
          | none => none
          | some lo =>
            if 0xDC00 ≤ lo ∧ lo ≤ 0xDFFF then
              scanText (Char.ofNat (0x10000 + (hi - 0xD800) * 1024 + (lo - 0xDC00)) :: done) rest'
            else none
        | _ => none
      else scanText (Char.ofNat hi :: done) rest
  | '\\' :: c :: rest =>
    match plainEscape? c with
    | some e => scanText (e :: done) rest
    | none => none
  | c :: rest => if c.toNat < 0x20 then none else scanText (c :: done) rest

/-- Digits after a point, at least one. -/
def scanFraction : List Char → Option (Option (List Char) × List Char)
  | '.' :: rest =>
    let ds := rest.takeWhile isDigit
    if ds.isEmpty then none else some (some ds, rest.dropWhile isDigit)
  | cs => some (none, cs)

/-- The digits of an exponent, at least one; more than ten digits are as good as ten. -/
def scanExponentDigits (sign : Int) (cs : List Char) : Option (Option Int × List Char) :=
  let ds := cs.takeWhile isDigit
  if ds.isEmpty then none
  else
    let n := ofDigits (ds.dropWhile (· = '0'))
    some (some (sign * min n 10000000000), cs.dropWhile isDigit)

/-- An exponent, if one follows. -/
def scanExponent : List Char → Option (Option Int × List Char)
  | e :: '+' :: rest =>
    if e = 'e' || e = 'E' then scanExponentDigits 1 rest else some (none, e :: '+' :: rest)
  | e :: '-' :: rest =>
    if e = 'e' || e = 'E' then scanExponentDigits (-1) rest else some (none, e :: '-' :: rest)
  | e :: rest =>
    if e = 'e' || e = 'E' then scanExponentDigits 1 rest else some (none, e :: rest)
  | [] => some (none, [])

/-- A numeral from its first digit on.  A zero that more digits follow is no numeral. -/
def scanNumber (negative : Bool) (cs : List Char) : Option (Json × List Char) := do
  let whole := cs.takeWhile isDigit
  let rest := cs.dropWhile isDigit
  if whole.isEmpty || (whole.head? = some '0' && 1 < whole.length) then none
  else
    let (fraction, rest) ← scanFraction rest
    let (exponent, rest) ← scanExponent rest
    let value ← Numeral.value? { negative, whole, fraction, exponent }
    return (value, rest)

/-- One token off the front of a text that is not empty, none for white space. -/
def next (c : Char) (rest : List Char) : Option (Option Token × List Char) :=
  if c = ' ' || c = '\n' || c = '\r' || c = '\t' then some (none, rest)
  else if c = '[' then some (some .openList, rest)
  else if c = ']' then some (some .closeList, rest)
  else if c = '{' then some (some .openObject, rest)
  else if c = '}' then some (some .closeObject, rest)
  else if c = ',' then some (some .comma, rest)
  else if c = ':' then some (some .colon, rest)
  else if c = '"' then (scanText [] rest).map fun (s, rest) => (some (.scalar (.text s)), rest)
  else if c = '-' then (scanNumber true rest).map fun (v, rest) => (some (.scalar v), rest)
  else if isDigit c then
    (scanNumber false (c :: rest)).map fun (v, rest) => (some (.scalar v), rest)
  else if c = 'n' then
    if ['u', 'l', 'l'].isPrefixOf rest then some (some (.scalar .null), rest.drop 3) else none
  else if c = 't' then
    if ['r', 'u', 'e'].isPrefixOf rest then some (some (.scalar (.bool true)), rest.drop 3)
    else none
  else if c = 'f' then
    if ['a', 'l', 's', 'e'].isPrefixOf rest then
      some (some (.scalar (.bool false)), rest.drop 4)
    else none
  else none

/-- The tokens of a text.  `fuel` bounds their number; the length of the text is enough. -/
def scanFrom : Nat → List Char → Option (List Token)
  | _, [] => some []
  | 0, _ :: _ => none
  | fuel + 1, c :: rest => do
    let (token, rest) ← next c rest
    let more ← scanFrom fuel rest
    return match token with
      | some t => t :: more
      | none => more

/-- The tokens of a text. -/
def scan (cs : List Char) : Option (List Token) :=
  scanFrom cs.length cs

end Token

end Mailshot.Json
