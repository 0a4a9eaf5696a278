/-!
# Percent escapes

A byte sequence written in letters, digits and four marks, with every other byte as a percent sign
and two hexadecimal digits, and the reading of such escapes.

* `encode` escapes all but the unreserved bytes, with upper-case digits;
* `decode` replaces every complete escape by its byte and keeps all else;
* `badEscape?` finds the first percent sign that starts no complete escape.
-/

namespace Mailshot.Text.Percent

/-- The percent sign. -/
def sign : UInt8 := 37

/-- Bytes that stand for themselves: ASCII letters, digits, hyphen, full stop, underscore, tilde. -/
def isUnreserved (b : UInt8) : Bool :=
  let n := b.toNat
  (48 ≤ n && n ≤ 57) || (65 ≤ n && n ≤ 90) || (97 ≤ n && n ≤ 122)
    || n = 45 || n = 46 || n = 95 || n = 126

/-- The upper-case hexadecimal digit of a value below sixteen. -/
def digit (v : Nat) : Char :=
  if v < 10 then Char.ofNat (48 + v) else Char.ofNat (65 + (v - 10))

/-- The value of a hexadecimal digit in either case. -/
def digit? (b : UInt8) : Option Nat :=
  let n := b.toNat
  if 48 ≤ n ∧ n ≤ 57 then some (n - 48)
  else if 65 ≤ n ∧ n ≤ 70 then some (n - 65 + 10)
  else if 97 ≤ n ∧ n ≤ 102 then some (n - 97 + 10)
  else none

/-- One byte, escaped unless it is unreserved. -/
def encodeByte (b : UInt8) : List Char :=
  if isUnreserved b then [Char.ofNat b.toNat]
  else ['%', digit (b.toNat / 16), digit (b.toNat % 16)]

/-- The escaped spelling of a byte sequence. -/
def encode (bytes : List UInt8) : List Char :=
  bytes.flatMap encodeByte

/-- The byte of the escape whose digits are `h` and `l`. -/
def byteOf? (h l : UInt8) : Option UInt8 :=
  match digit? h, digit? l with
  | some p, some q => some (UInt8.ofNat (p * 16 + q))
  | _, _ => none

/-- The bytes that a spelling stands for; a percent sign that starts no escape is kept. -/
def decode : List UInt8 → List UInt8
  | a :: h :: l :: rest =>
    if a = sign then
      match byteOf? h l with
      | some b => b :: decode rest
      | none => a :: decode (h :: l :: rest)
    else a :: decode (h :: l :: rest)
  | short => short

/-- The bytes from the first percent sign on that no two hexadecimal digits follow, three at most.
-/
def badEscape? : List UInt8 → Option (List UInt8)
  | [] => none
  | [a] => if a = sign then some [a] else none
  | [a, b] => if a = sign then some [a, b] else badEscape? [b]
  | a :: h :: l :: rest =>
    if a = sign then
      match byteOf? h l with
      | some _ => badEscape? rest
      | none => some [a, h, l]
    else badEscape? (h :: l :: rest)

end Mailshot.Text.Percent
