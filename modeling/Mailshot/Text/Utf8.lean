/-!
# UTF-8

Text as bytes and back.  A byte sequence is read from the left, one scalar value at a time, and
the first place where that fails is named by its offset: either the bytes there cannot start or
continue a character, or the input ends inside one.

* `next`: one character off the front, or how many bytes go wrong there;
* `decode`: all characters, or the first flaw and where it is;
* `decodeLossy`: all characters, a replacement mark for each flaw.
-/

namespace Mailshot.Text.Utf8

/-- The bytes of a text. -/
def encode (cs : List Char) : List UInt8 :=
  cs.flatMap String.utf8EncodeChar

/-- How a byte sequence fails to be text. -/
inductive Flaw where
  /-- The `width` bytes from `offset` on belong to no character. -/
  | invalid (offset width : Nat)
  /-- The input ends inside the character that starts at `offset`. -/
  | incomplete (offset : Nat)
  deriving DecidableEq, Repr

/-- The wording of a flaw. -/
def Flaw.message : Flaw → String
  | .invalid offset width => s!"invalid utf-8 sequence of {width} bytes from index {offset}"
  | .incomplete offset => s!"incomplete utf-8 byte sequence from index {offset}"

/-- What stands at the front of a byte sequence that is not empty. -/
inductive Next where
  | character (c : Char) (rest : List UInt8)
  | broken (width : Nat) (rest : List UInt8)
  | cut

/-- A continuation byte carries six bits. -/
def isTail (b : Nat) : Bool := 0x80 ≤ b && b ≤ 0xBF

/-- The least and the greatest second byte after the lead byte `a`, which keep out long spellings,
surrogates and values past the last scalar value. -/
def secondRange (a : Nat) : Nat × Nat :=
  if a = 0xE0 then (0xA0, 0xBF)
  else if a = 0xED then (0x80, 0x9F)
  else if a = 0xF0 then (0x90, 0xBF)
  else if a = 0xF4 then (0x80, 0x8F)
  else (0x80, 0xBF)

/-- Is `b` a fit second byte after the lead byte `a`? -/
def isSecond (a b : Nat) : Bool :=
  (secondRange a).1 ≤ b && b ≤ (secondRange a).2

/-- One character off the front of `lead :: bytes`.  A flaw covers the lead byte and those bytes
after it that could still have continued the character. -/
def next (lead : UInt8) (bytes : List UInt8) : Next :=
  let a := lead.toNat
  if a < 0x80 then .character (Char.ofNat a) bytes
  else if 0xC2 ≤ a ∧ a ≤ 0xDF then
    match bytes with
    | [] => .cut
    | b :: rest =>
      if isTail b.toNat then .character (Char.ofNat ((a - 0xC0) * 64 + (b.toNat - 0x80))) rest
      else .broken 1 bytes
  else if 0xE0 ≤ a ∧ a ≤ 0xEF then
    match bytes with
    | [] => .cut
    | b :: rest =>
      if isSecond a b.toNat then
        match rest with
        | [] => .cut
        | c :: rest' =>
          if isTail c.toNat then
            .character (Char.ofNat
              ((a - 0xE0) * 4096 + (b.toNat - 0x80) * 64 + (c.toNat - 0x80))) rest'
          else .broken 2 rest
      else .broken 1 bytes
  else if 0xF0 ≤ a ∧ a ≤ 0xF4 then
    match bytes with
    | [] => .cut
    | b :: rest =>
      if isSecond a b.toNat then
        match rest with
        | [] => .cut
        | c :: rest' =>
          if isTail c.toNat then
            match rest' with
            | [] => .cut
            | d :: rest'' =>
              if isTail d.toNat then
                .character (Char.ofNat
                  ((a - 0xF0) * 262144 + (b.toNat - 0x80) * 4096 + (c.toNat - 0x80) * 64
                    + (d.toNat - 0x80))) rest''
              else .broken 3 rest'
          else .broken 2 rest
      else .broken 1 bytes
  else .broken 1 bytes

/-- Reading a character leaves no more than the bytes after its lead byte. -/
theorem length_of_next_character {a : UInt8} {bs rest : List UInt8} {c : Char}
    (h : next a bs = .character c rest) : rest.length ≤ bs.length := by
  unfold next at h
  grind

/-- Passing over a flaw leaves no more than the bytes after its lead byte. -/
theorem length_of_next_broken {a : UInt8} {bs rest : List UInt8} {w : Nat}
    (h : next a bs = .broken w rest) : rest.length ≤ bs.length := by
  unfold next at h
  grind

/-- The characters of `bytes`, which start at `offset` of the whole input. -/
def decodeFrom (offset : Nat) (bytes : List UInt8) : Except Flaw (List Char) :=
  match bytes with
  | [] => .ok []
  | a :: bs =>
    match _h : next a bs with
    | .character c rest =>
      (decodeFrom (offset + c.utf8Size) rest).map (c :: ·)
    | .broken width _ => .error (.invalid offset width)
    | .cut => .error (.incomplete offset)
termination_by bytes.length
decreasing_by exact Nat.lt_succ_of_le (length_of_next_character ‹_›)

/-- The characters of a byte sequence, or its first flaw. -/
def decode (bytes : List UInt8) : Except Flaw (List Char) :=
  decodeFrom 0 bytes

/-- The mark that stands for bytes that are no text. -/
def replacement : Char := Char.ofNat 0xFFFD

/-- The characters of a byte sequence, one replacement mark in the place of each flaw. -/
def decodeLossy (bytes : List UInt8) : List Char :=
  match bytes with
  | [] => []
  | a :: bs =>
    match _h : next a bs with
    | .character c rest =>
      c :: decodeLossy rest
    | .broken _ rest =>
      replacement :: decodeLossy rest
    | .cut => [replacement]
termination_by bytes.length
decreasing_by
  · exact Nat.lt_succ_of_le (length_of_next_character ‹_›)
  · exact Nat.lt_succ_of_le (length_of_next_broken ‹_›)

end Mailshot.Text.Utf8
