/-!
# Base64

The standard alphabet with padding.  Reading is strict: the last quad must be padded to four
symbols, and the bits that padding leaves over must be zero, so every byte sequence has exactly one
spelling.  A misspelling is named by the first fault a left-to-right reader meets, with its offset.

* `encode`: three bytes to four symbols;
* `decode`: all quads but the last hold four symbols of the alphabet, the last is read by
  `decodeLast`.
-/

namespace Mailshot.Text.Base64

/-- The symbol for a six-bit value. -/
def symbol (v : Nat) : Char :=
  if v < 26 then Char.ofNat (65 + v)
  else if v < 52 then Char.ofNat (97 + (v - 26))
  else if v < 62 then Char.ofNat (48 + (v - 52))
  else if v = 62 then '+'
  else '/'

/-- The padding byte, an equals sign. -/
def pad : UInt8 := 61

/-- The six-bit value of a byte of the alphabet.  Padding is no part of the alphabet. -/
def value? (b : UInt8) : Option Nat :=
  let n := b.toNat
  if 65 ≤ n ∧ n ≤ 90 then some (n - 65)
  else if 97 ≤ n ∧ n ≤ 122 then some (n - 97 + 26)
  else if 48 ≤ n ∧ n ≤ 57 then some (n - 48 + 52)
  else if n = 43 then some 62
  else if n = 47 then some 63
  else none

/-- The padded spelling of a byte sequence. -/
def encode : List UInt8 → List Char
  | [] => []
  | [a] =>
    [symbol (a.toNat / 4), symbol (a.toNat % 4 * 16), '=', '=']
  | [a, b] =>
    [symbol (a.toNat / 4), symbol (a.toNat % 4 * 16 + b.toNat / 16),
      symbol (b.toNat % 16 * 4), '=']
  | a :: b :: c :: rest =>
    symbol (a.toNat / 4) :: symbol (a.toNat % 4 * 16 + b.toNat / 16)
      :: symbol (b.toNat % 16 * 4 + c.toNat / 64) :: symbol (c.toNat % 64) :: encode rest

/-- How a byte sequence fails to be a spelling. -/
inductive Flaw where
  /-- A byte that may not stand where it stands. -/
  | invalidByte (offset : Nat) (byte : UInt8)
  /-- The input ends one symbol after a complete quad, or holds too few symbols in its last. -/
  | invalidLength (length : Nat)
  /-- The last symbol carries bits that are not part of a byte. -/
  | invalidLastSymbol (offset : Nat) (byte : UInt8)
  /-- The last quad is not padded to four symbols. -/
  | invalidPadding
  deriving DecidableEq, Repr

/-- The wording of a flaw. -/
def Flaw.message : Flaw → String
  | .invalidByte offset byte => s!"Invalid symbol {byte.toNat}, offset {offset}."
  | .invalidLength length => s!"Invalid input length: {length}"
  | .invalidLastSymbol offset byte => s!"Invalid last symbol {byte.toNat}, offset {offset}."
  | .invalidPadding => "Invalid padding"

/-- What is known of the last quad: its symbols with their values, how many padding bytes followed
them, and where the first of these stands. -/
structure Tail where
  symbols : List (UInt8 × Nat) := []
  pads : Nat := 0
  firstPad : Nat := 0

/-- Reads the last quad byte by byte; `place` counts them from its `start`.  Padding may not stand
in the first two places, and nothing but padding may follow padding. -/
def scanTail (start : Nat) (place : Nat) (t : Tail) : List UInt8 → Except Flaw Tail
  | [] => .ok t
  | b :: bs =>
    if b = pad then
      if place < 2 then .error (.invalidByte (start + place) b)
      else scanTail start (place + 1)
        { t with pads := t.pads + 1, firstPad := if t.pads = 0 then place else t.firstPad } bs
    else if 0 < t.pads then .error (.invalidByte (start + t.firstPad) pad)
    else match value? b with
      | none => .error (.invalidByte (start + place) b)
      | some v => scanTail start (place + 1) { t with symbols := t.symbols ++ [(b, v)] } bs

/-- The bytes of the last quad's symbols; bits left over must be zero. -/
def closeTail (start : Nat) : List (UInt8 × Nat) → Except Flaw (List UInt8)
  | [(_, p), (y, q)] =>
    if q % 16 ≠ 0 then .error (.invalidLastSymbol (start + 1) y)
    else .ok [UInt8.ofNat (p * 4 + q / 16)]
  | [(_, p), (_, q), (z, r)] =>
    if r % 4 ≠ 0 then .error (.invalidLastSymbol (start + 2) z)
    else .ok [UInt8.ofNat (p * 4 + q / 16), UInt8.ofNat (q % 16 * 16 + r / 4)]
  | [(_, p), (_, q), (_, r), (_, s)] =>
    .ok [UInt8.ofNat (p * 4 + q / 16), UInt8.ofNat (q % 16 * 16 + r / 4),
      UInt8.ofNat (r % 4 * 64 + s)]
  | symbols => .error (.invalidLength (start + symbols.length))

/-- Reads the last quad, which starts at offset `start`. -/
def decodeLast (start : Nat) (bytes : List UInt8) : Except Flaw (List UInt8) := do
  let t ← scanTail start 0 {} bytes
  if t.symbols.length < 2 then .error (.invalidLength (start + t.symbols.length))
  else if (t.symbols.length + t.pads) % 4 ≠ 0 then .error .invalidPadding
  else closeTail start t.symbols

/-- The value of a byte that has to be a symbol. -/
def symbolAt (offset : Nat) (b : UInt8) : Except Flaw Nat :=
  match value? b with
  | some v => .ok v
  | none => .error (.invalidByte offset b)

/-- Reads quads from offset `start` on; one that nothing follows is the last. -/
def decodeQuads (start : Nat) : List UInt8 → Except Flaw (List UInt8)
  | a :: b :: c :: d :: e :: rest => do
    let p ← symbolAt start a
    let q ← symbolAt (start + 1) b
    let r ← symbolAt (start + 2) c
    let s ← symbolAt (start + 3) d
    let more ← decodeQuads (start + 4) (e :: rest)
    .ok (UInt8.ofNat (p * 4 + q / 16) :: UInt8.ofNat (q % 16 * 16 + r / 4)
      :: UInt8.ofNat (r % 4 * 64 + s) :: more)
  | [] => .ok []
  | last => decodeLast start last

/-- A byte outside the alphabet that stands alone after the last complete quad, such as a line feed,
is reported before anything else. -/
def strayEnd? (bytes : List UInt8) : Option Flaw :=
  if bytes.length % 4 = 1 then
    match bytes.getLast? with
    | some b =>
      if b ≠ pad ∧ value? b = none then some (.invalidByte (bytes.length - 1) b) else none
    | none => none
  else none

/-- The bytes that a padded spelling stands for. -/
def decode (bytes : List UInt8) : Except Flaw (List UInt8) :=
  match strayEnd? bytes with
  | some flaw => .error flaw
  | none => decodeQuads 0 bytes

end Mailshot.Text.Base64
