import Mailshot.Number.Binary64

/-!
# JSON values

Members of an object are kept in the order in which they were first written, one value for each key.
Numbers come in two kinds: integers of 64 bits, signed or not, and all others as binary64 numbers.
-/

namespace Mailshot

/-- A JSON value. -/
inductive Json where
  | null
  | bool (b : Bool)
  | int (i : Int)
  | double (x : Number.Binary64)
  | text (s : String)
  | list (items : List Json)
  | object (members : List (String × Json))
  deriving Repr, Inhabited, BEq

namespace Json

/-- A natural number as a JSON value. -/
def nat (n : Nat) : Json := .int n

/-- A text, or null where there is none. -/
def text? : Option String → Json
  | some s => .text s
  | none => .null

/-- The value of a member of an object. -/
def get? (key : String) : Json → Option Json
  | .object members => members.lookup key
  | _ => none

end Json

end Mailshot
