import Mailshot.Json.Basic

/-!
# Reading records

A record is written as an object, or as the list of its fields in their order.  Both come down to a
look-up by field name, so a record's reader is written once.  Keys that name no field are passed
over; fields at the end of a list may be missing; a list longer than the record is refused.

* `Record.ofJson?`: the two forms;
* `Record.required`, `Record.optional`: a field that has to be there, and one with a default.  A
  field that is there has to read, also where it has a default.
-/

namespace Mailshot.Json

/-- The fields of a record by name. -/
structure Record where
  get? : String → Option Json

namespace Record

/-- A value as a record with the fields `names`. -/
def ofJson? (names : List String) : Json → Option Record
  | .object members => some ⟨fun name => members.lookup name⟩
  | .list items =>
    if items.length ≤ names.length then some ⟨fun name => (names.zip items).lookup name⟩ else none
  | _ => none

/-- A field that has to be there. -/
def required (r : Record) (name : String) (read : Json → Option α) : Option α :=
  match r.get? name with
  | some v => read v
  | none => none

/-- A field that stands for `default` where it is missing. -/
def optional (r : Record) (name : String) (default : α) (read : Json → Option α) : Option α :=
  match r.get? name with
  | some v => read v
  | none => some default

end Record

/-- A truth value. -/
def bool? : Json → Option Bool
  | .bool b => some b
  | _ => none

/-- A text. -/
def string? : Json → Option String
  | .text s => some s
  | _ => none

/-- An integer from `low` to `high`. -/
def intIn? (low high : Int) : Json → Option Int
  | .int i => if low ≤ i ∧ i ≤ high then some i else none
  | _ => none

/-- A natural number up to `high`. -/
def natTo? (high : Nat) (v : Json) : Option Nat :=
  (intIn? 0 high v).map Int.toNat

/-- A value that may be null. -/
def nullable? (read : Json → Option α) : Json → Option (Option α)
  | .null => some none
  | v => (read v).map some

/-- A list of values. -/
def listOf? (read : Json → Option α) : Json → Option (List α)
  | .list items => items.mapM read
  | _ => none

/-- The name of a case without content: a text, or an object with that key and null. -/
def caseName? : Json → Option String
  | .text s => some s
  | .object [(s, .null)] => some s
  | _ => none

end Mailshot.Json
