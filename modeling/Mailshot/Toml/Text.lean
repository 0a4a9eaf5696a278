import Mailshot.Text.Digit
import Mailshot.Toml.Line

/-!
# TOML strings

The four kinds of strings: with escapes or without, on one line or over several.  Each reader starts
after the opening quotes and gives the text with what follows the closing ones.
-/

namespace Mailshot.Toml

open Text (hexDigit?)

/-- May the character stand for itself in a string? -/
def isPlain (c : Char) : Bool := c = '\t' || (0x20 ≤ c.toNat && c.toNat ≠ 0x7F)

/-- The quotes of strings without escapes. -/
def tick : Char := '\x27'

/-- The character of a code point in hexadecimal digits. -/
def codePoint? (digits : List Char) : Option Char := do
  let values ← digits.mapM hexDigit?
  let n := values.foldl (fun n d => n * 16 + d) 0
  if n < 0xD800 ∨ (0xDFFF < n ∧ n ≤ 0x10FFFF) then some (Char.ofNat n) else none

/-- The character of a one-letter escape. -/
def plainEscape? (c : Char) : Option Char :=
  if c = '"' || c = '\\' then some c
  else if c = 'b' then some '\x08'
  else if c = 'f' then some '\x0c'
  else if c = 'n' then some '\n'
  else if c = 'r' then some '\r'
  else if c = 't' then some '\t'
  else none

/-- The character of an escape after its backslash, and what follows. -/
def escape? : List Char → Option (Char × List Char)
  | 'u' :: a :: b :: c :: d :: rest => (codePoint? [a, b, c, d]).map (·, rest)
  | 'U' :: a :: b :: c :: d :: e :: f :: g :: h :: rest =>
    (codePoint? [a, b, c, d, e, f, g, h]).map (·, rest)
  | c :: rest => (plainEscape? c).map (·, rest)
  | [] => none

/-- Text whose characters were read in order, the last one first. -/
def gathered (done : List Char) : String := String.ofList done.reverse

/-- A string with escapes on one line; `fuel` bounds its length. -/
def basicFrom : Nat → List Char → List Char → Option (String × List Char)
  | 0, _, _ => none
  | _ + 1, _, [] => none
  | fuel + 1, done, c :: rest =>
    if c = '"' then some (gathered done, rest)
    else if c = '\\' then
      match escape? rest with
      | some (e, rest) => basicFrom fuel (e :: done) rest
      | none => none
    else if isPlain c then basicFrom fuel (c :: done) rest
    else none

/-- A string with escapes on one line. -/
def basic? (cs : List Char) : Option (String × List Char) :=
  basicFrom (cs.length + 1) [] cs

/-- A string without escapes on one line. -/
def literal? (cs : List Char) : Option (String × List Char) :=
  let isBody (c : Char) : Bool := isPlain c && c ≠ tick
  match cs.dropWhile isBody with
  | c :: rest => if c = tick then some (String.ofList (cs.takeWhile isBody), rest) else none
  | [] => none

/-- The quotes at the front of a text, five at most. -/
def quoteRun (quote : Char) (cs : List Char) : Nat :=
  ((cs.take 5).takeWhile (· = quote)).length

/-- What follows white space and line breaks, `fuel` characters at most. -/
def skipFold : Nat → List Char → List Char
  | 0, cs => cs
  | fuel + 1, cs =>
    match afterBreak? (skipGap cs) with
    | some next => skipFold fuel next
    | none => skipGap cs

/-- A string over several lines.  Three quotes close it, and one or two more before them belong to
it.  Where escapes are on, a backslash at the end of a line takes away all white space up to the
next character; `fuel` bounds the length. -/
def linesFrom (quote : Char) (escapes : Bool) :
    Nat → List Char → List Char → Option (String × List Char)
  | 0, _, _ => none
  | _ + 1, _, [] => none
  | fuel + 1, done, c :: rest =>
    let run := quoteRun quote (c :: rest)
    if 3 ≤ run then some (gathered (List.replicate (run - 3) quote ++ done), (c :: rest).drop run)
    else if escapes && c = '\\' then
      match afterBreak? (skipGap rest) with
      | some next => linesFrom quote escapes fuel done (skipFold next.length next)
      | none =>
        match escape? rest with
        | some (e, rest) => linesFrom quote escapes fuel (e :: done) rest
        | none => none
    else if isPlain c then linesFrom quote escapes fuel (c :: done) rest
    else
      match afterBreak? (c :: rest) with
      | some next => linesFrom quote escapes fuel ('\n' :: done) next
      | none => none

/-- A string over several lines.  A line break right after the opening quotes does not count. -/
def lines? (quote : Char) (escapes : Bool) (cs : List Char) : Option (String × List Char) :=
  let body := (afterBreak? cs).getD cs
  linesFrom quote escapes (body.length + 1) [] body

/-- Any string, from its opening quotes on. -/
def string? : List Char → Option (String × List Char)
  | a :: b :: c :: rest =>
    if a = '"' && b = '"' && c = '"' then lines? '"' true rest
    else if a = tick && b = tick && c = tick then lines? tick false rest
    else if a = '"' then basic? (b :: c :: rest)
    else if a = tick then literal? (b :: c :: rest)
    else none
  | a :: rest => if a = '"' then basic? rest else if a = tick then literal? rest else none
  | [] => none

end Mailshot.Toml
