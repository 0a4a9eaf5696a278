import Mailshot.Text.Utf8
import Mailshot.Text.Base64
import Mailshot.Text.Percent
import Mailshot.Text.Blank
import Mailshot.Text.Quoted

/-!
# Stored bodies

A mail body is stored as the base64 of its percent-escaped HTML.  Reading undoes the two steps in
turn, with plus signs read as spaces, and names the first stage that fails.

* `Body.encode`: HTML to its stored form;
* `Body.decode`: a stored form, white space around it allowed, back to HTML.
-/

namespace Mailshot.Body

open Text

/-- The stage at which a stored body turns out to be unreadable. -/
inductive Flaw where
  | base64 (flaw : Base64.Flaw)
  | utf8 (flaw : Utf8.Flaw)
  /-- A percent sign that starts no escape, with the bytes after it, three at most. -/
  | escape (bytes : List UInt8)
  | unescaped (flaw : Utf8.Flaw)
  deriving DecidableEq, Repr

/-- The wording of a flaw. -/
def Flaw.message : Flaw → String
  | .base64 flaw => s!"base64: {flaw.message}"
  | .utf8 flaw => s!"utf-8: {flaw.message}"
  | .escape bytes =>
    "url unescape: invalid escape " ++ Quoted.quote (String.ofList (Utf8.decodeLossy bytes))
  | .unescaped flaw => s!"url unescape: {flaw.message}"

/-- The stored form of HTML. -/
def encode (html : String) : String :=
  String.ofList (Base64.encode (Utf8.encode (Percent.encode (Utf8.encode html.toList))))

/-- A plus sign stands for a space. -/
def plusToSpace (b : UInt8) : UInt8 :=
  if b = 43 then 32 else b

/-- The bytes of the HTML behind escaped bytes. -/
def unescape (bytes : List UInt8) : List UInt8 :=
  Percent.decode (bytes.map plusToSpace)

/-- The HTML of a stored form. -/
def decode (stored : String) : Except Flaw String := do
  let bytes ← (Base64.decode (Utf8.encode (trim stored.toList))).mapError .base64
  let _ ← (Utf8.decode bytes).mapError .utf8
  match Percent.badEscape? bytes with
  | some bad => throw (.escape bad)
  | none =>
    let html ← (Utf8.decode (unescape bytes)).mapError .unescaped
    return String.ofList html

end Mailshot.Body
