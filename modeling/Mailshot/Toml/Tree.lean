import Mailshot.Json.Basic
import Mailshot.Table

/-!
# TOML tables

What the statements of a document build: values under keys, tables and lists of tables.  A key is
given its value once, and a table is opened once; keys with points reach only tables that such keys
made.

* `Tree.assign`: a key gets its value;
* `Tree.openTable`, `Tree.openItem`: what a header does, with all that stands under it.
-/

namespace Mailshot.Toml

/-- How a table came about. -/
inductive Origin where
  /-- On the way to a header. -/
  | implied
  /-- On the way to a key with points. -/
  | dotted
  /-- By a header of its own. -/
  | header
  deriving DecidableEq, Repr

/-- What stands under a key. -/
inductive Tree where
  | value (v : Json)
  | table (origin : Origin) (members : List (String × Tree))
  /-- A list of tables, the last of which is still open. -/
  | items (before : List (List (String × Tree))) (last : List (String × Tree))

namespace Tree

/-- What stands under keys. -/
abbrev Members := List (String × Tree)

/-- Gives a key its value. -/
def assign : List String → Json → Members → Option Members
  | [], _, _ => none
  | [key], v, ms =>
    match Table.find key ms with
    | none => some (Table.put key (.value v) ms)
    | some _ => none
  | key :: rest, v, ms =>
    match Table.find key ms with
    | none => (assign rest v []).map fun sub => Table.put key (.table .dotted sub) ms
    | some (.table .dotted old) =>
      (assign rest v old).map fun sub => Table.put key (.table .dotted sub) ms
    | some _ => none

/-- Changes what a path of a header leads to, in the last item of each list on the way. -/
def within : List String → (Members → Option Members) → Members → Option Members
  | [], change, ms => change ms
  | key :: rest, change, ms =>
    match Table.find key ms with
    | none => (within rest change []).map fun sub => Table.put key (.table .implied sub) ms
    | some (.table origin old) =>
      (within rest change old).map fun sub => Table.put key (.table origin sub) ms
    | some (.items before last) =>
      (within rest change last).map fun sub => Table.put key (.items before sub) ms
    | some (.value _) => none

/-- Opens the table of a key and fills it. -/
def openTable (fill : Members → Option Members) (key : String) (ms : Members) : Option Members :=
  match Table.find key ms with
  | none => (fill []).map fun sub => Table.put key (.table .header sub) ms
  | some (.table .implied old) => (fill old).map fun sub => Table.put key (.table .header sub) ms
  | some _ => none

/-- Opens one more item in the list of a key and fills it. -/
def openItem (fill : Members → Option Members) (key : String) (ms : Members) : Option Members :=
  match Table.find key ms with
  | none => (fill []).map fun sub => Table.put key (.items [] sub) ms
  | some (.items before last) =>
    (fill []).map fun sub => Table.put key (.items (before ++ [last]) sub) ms
  | some _ => none

mutual

/-- The value of a tree. -/
def toJson : Tree → Json
  | .value v => v
  | .table _ ms => .object (membersToJson ms)
  | .items before last => .list (itemsToJson before ++ [.object (membersToJson last)])

/-- The values of members. -/
def membersToJson : List (String × Tree) → List (String × Json)
  | [] => []
  | (key, tree) :: rest => (key, toJson tree) :: membersToJson rest

/-- The values of items. -/
def itemsToJson : List (List (String × Tree)) → List Json
  | [] => []
  | ms :: rest => .object (membersToJson ms) :: itemsToJson rest

end

end Tree

end Mailshot.Toml
