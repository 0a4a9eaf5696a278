import Mailshot.Json.Basic
import Mailshot.Table
import Mailshot.Text.Digit

/-!
# Layers of settings

Settings come in layers, each a list of keys with values, the later ones over the earlier ones.  A
key is a path into a tree of values: names with points between them, and places in lists between
brackets.  Case does not matter.  A table is merged with the one below it, name by name; anything
else takes the place of what was there.

* `Path.parse?`: the path that a key spells;
* `Layer.assign`: one key over the tree below;
* `Layer.onto`: a whole layer.
-/

namespace Mailshot

open Text (isDigit ofDigits)

/-- A character in lower case, as far as it can stand in the name of a setting.  The Kelvin sign is
one more capital K. -/
def lowerChar (c : Char) : Char := if c = '\u212A' then 'k' else c.toLower

/-- A text in lower case, as far as it can stand in the name of a setting. -/
def lowerCase (s : String) : String := String.ofList (s.toList.map lowerChar)

/-- A step into a tree of values. -/
inductive Step where
  | child (name : String)
  /-- A place in a list, from the end where it is negative. -/
  | item (place : Int)
  deriving DecidableEq, Repr

/-- A path into a tree of values. -/
structure Path where
  root : String
  steps : List Step := []
  deriving DecidableEq, Repr

namespace Path

/-- May the character stand in a name? -/
def isName (c : Char) : Bool :=
  ('a' ≤ c && c ≤ 'z') || ('A' ≤ c && c ≤ 'Z') || isDigit c || c = ' ' || c = '_' || c = '-'

/-- A name, one character at least. -/
def name? (cs : List Char) : Option (String × List Char) :=
  let name := cs.takeWhile isName
  if name.isEmpty then none else some (String.ofList name, cs.dropWhile isName)

/-- What follows spaces and tabs. -/
def skipSpace (cs : List Char) : List Char := cs.dropWhile fun c => c = ' ' || c = '\t'

/-- A place between brackets, after the opening one. -/
def place? (cs : List Char) : Option (Int × List Char) :=
  let (negative, cs) : Bool × List Char :=
    match skipSpace cs with
    | '-' :: rest => (true, rest)
    | cs => (false, cs)
  let digits := cs.takeWhile isDigit
  match digits, skipSpace (cs.dropWhile isDigit) with
  | _ :: _, ']' :: rest =>
    some (if negative then -(ofDigits digits : Int) else ofDigits digits, rest)
  | _, _ => none

/-- Steps up to the end of a key, `fuel` at most. -/
def stepsFrom : Nat → List Char → Option (List Step)
  | _, [] => some []
  | fuel + 1, '.' :: rest => do
    let (name, rest) ← name? rest
    return .child name :: (← stepsFrom fuel rest)
  | fuel + 1, '[' :: rest => do
    let (place, rest) ← place? rest
    return .item place :: (← stepsFrom fuel rest)
  | _, _ => none

/-- The path that a key spells. -/
def parse? (key : String) : Option Path := do
  let (root, rest) ← name? key.toList
  return { root, steps := ← stepsFrom rest.length rest }

/-- The path of a key.  A key that spells none is a single name. -/
def ofKey (key : String) : Path :=
  (parse? key).getD { root := key }

end Path

/-- Keys with values. -/
abbrev Layer := List (String × Json)

namespace Layer

/-- The members of a table; what is no table has none. -/
def membersOf : Json → List (String × Json)
  | .object ms => ms
  | _ => []

/-- The items of a list; what is no list has none. -/
def itemsOf : Json → List Json
  | .list items => items
  | _ => []

mutual

/-- A value over the one below it: tables are merged, anything else replaces. -/
def merge (below : Json) : Json → Json
  | .object ms => mergeMembers below ms
  | v => v

/-- Members over a value.  What is no table gives way to the first of them. -/
def mergeMembers (below : Json) : List (String × Json) → Json
  | [] => below
  | (name, v) :: rest =>
    let name := lowerCase name
    let ms := membersOf below
    let fresh := (Table.find name ms).getD (.object [])
    mergeMembers (.object (Table.put name (merge fresh v) ms)) rest

end

/-- The place in a list of some length. -/
def placeIn (length : Nat) (place : Int) : Nat :=
  if 0 ≤ place then place.toNat else length - place.natAbs

/-- Puts a value at a place, with nothing in places skipped. -/
def setItem (items : List Json) (place : Nat) (v : Json) : List Json :=
  (items ++ List.replicate (place + 1 - items.length) Json.null).set place v

/-- A value over what a path leads to. -/
def assignAt (v : Json) : List Step → Json → Json
  | [], below => merge below v
  | .child name :: rest, below =>
    let name := lowerCase name
    let ms := membersOf below
    let inner := (Table.find name ms).getD (.object [])
    .object (Table.put name (assignAt v rest inner) ms)
  | .item place :: rest, below =>
    let items := itemsOf below
    let place := placeIn items.length place
    let inner := items[place]?.getD .null
    let value := if rest.isEmpty then v else assignAt v rest inner
    .list (setItem items place value)

/-- One key over the tree below. -/
def assign (tree : Json) (key : String) (v : Json) : Json :=
  let path := Path.ofKey key
  assignAt v (.child path.root :: path.steps) tree

/-- A layer over the tree below. -/
def onto (tree : Json) (layer : Layer) : Json :=
  layer.foldl (fun tree (key, v) => assign tree key v) tree

/-- Layers over each other, the first one at the bottom. -/
def stack (layers : List Layer) : Json :=
  layers.foldl onto (.object [])

end Layer

end Mailshot
