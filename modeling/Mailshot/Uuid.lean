import Mailshot.Text.Digit

/-!
# Identifiers

A UUID is a number of 128 bits.  It is written as 32 lower-case hexadecimal digits with hyphens
after the eighth, twelfth, sixteenth and twentieth, and read in four spellings, digits in either
case.

* `toString`: the canonical spelling;
* `parse?`: hyphenated, without hyphens, in braces, and as a URN.
-/

namespace Mailshot

/-- A UUID. -/
structure Uuid where
  bits : BitVec 128
  deriving DecidableEq, Inhabited

namespace Uuid

/-- The UUID with all bits zero. -/
def nil : Uuid := ⟨0⟩

/-- The UUID whose value is a number. -/
def ofNat (n : Nat) : Uuid := ⟨BitVec.ofNat 128 n⟩

/-- The UUID of version 4 with the other bits of a number. -/
def ofRandom (n : Nat) : Uuid :=
  let b := BitVec.ofNat 128 n
  ⟨b.extractLsb' 80 48 ++ (4#4) ++ b.extractLsb' 64 12 ++ (2#2) ++ b.extractLsb' 0 62⟩

/-- The value of a UUID. -/
def toNat (u : Uuid) : Nat := u.bits.toNat

/-- The digit at a place, the last being place zero. -/
def digitAt (u : Uuid) (place : Nat) : Char :=
  Nat.digitChar (u.toNat / Nat.pow 16 place % 16)

/-- The 32 digits, the greatest first. -/
def digits (u : Uuid) : List Char :=
  (List.range 32).reverse.map u.digitAt

/-- Hyphens between groups of 8, 4, 4, 4 and 12 digits. -/
def hyphenate (ds : List Char) : List Char :=
  ds.take 8 ++ '-' :: (ds.drop 8).take 4 ++ '-' :: (ds.drop 12).take 4
    ++ '-' :: (ds.drop 16).take 4 ++ '-' :: ds.drop 20

/-- The canonical spelling. -/
def toString (u : Uuid) : String :=
  String.ofList (hyphenate u.digits)

instance : ToString Uuid := ⟨toString⟩

instance : Repr Uuid := ⟨fun u _ => u.toString⟩

/-- The number written by hexadecimal digits. -/
def number? (n : Nat) : List Char → Option Nat
  | [] => some n
  | c :: rest =>
    match Text.hexDigit? c with
    | some d => number? (n * 16 + d) rest
    | none => none

/-- Thirty-two digits. -/
def parseSimple? (cs : List Char) : Option Uuid :=
  if cs.length = 32 then (number? 0 cs).map ofNat else none

/-- Thirty-two digits with their four hyphens. -/
def parseHyphenated? (cs : List Char) : Option Uuid :=
  if cs.length = 36 ∧ cs[8]? = some '-' ∧ cs[13]? = some '-' ∧ cs[18]? = some '-'
      ∧ cs[23]? = some '-' then
    parseSimple? (cs.take 8 ++ (cs.drop 9).take 4 ++ (cs.drop 14).take 4 ++ (cs.drop 19).take 4
      ++ cs.drop 24)
  else none

/-- What stands before the hyphenated form in a URN. -/
def urnStart : List Char := "urn:uuid:".toList

/-- Any of the four spellings; their lengths tell them apart. -/
def parseChars? (cs : List Char) : Option Uuid :=
  if cs.length = 32 then parseSimple? cs
  else if cs.length = 36 then parseHyphenated? cs
  else if cs.length = 38 then
    if cs.head? = some '{' ∧ cs.getLast? = some '}' then parseHyphenated? ((cs.drop 1).take 36)
    else none
  else if cs.length = 45 then
    if urnStart.isPrefixOf cs then parseHyphenated? (cs.drop 9) else none
  else none

/-- A UUID from its text. -/
def parse? (s : String) : Option Uuid :=
  parseChars? s.toList

end Uuid

end Mailshot
