import Mailshot.Toml.Scalar
import Mailshot.Toml.Text
import Mailshot.Toml.Tree

/-!
# Reading TOML

A document is a list of statements, one on a line: headers of tables, headers of items in lists of
tables, and keys with values.

* `statements?`: the statements of a text;
* `parse`: the value of a text.
-/

namespace Mailshot.Toml

open Text (isDigit)

/-- May the character stand in a key without quotes? -/
def isBare (c : Char) : Bool :=
  isDigit c || ('a' ≤ c && c ≤ 'z') || ('A' ≤ c && c ≤ 'Z') || c = '-' || c = '_'

/-- A key without points. -/
def simpleKey? (cs : List Char) : Option (String × List Char) :=
  match cs with
  | '"' :: rest => basic? rest
  | c :: rest =>
    if c = tick then literal? rest
    else if isBare c then some (String.ofList (cs.takeWhile isBare), cs.dropWhile isBare)
    else none
  | [] => none

/-- A key with points, white space around each part; `fuel` bounds the number of parts. -/
def keyFrom : Nat → List Char → Option (List String × List Char)
  | 0, _ => none
  | fuel + 1, cs => do
    let (key, rest) ← simpleKey? (skipGap cs)
    match skipGap rest with
    | '.' :: more =>
      let (keys, rest) ← keyFrom fuel more
      return (key :: keys, rest)
    | rest => return ([key], rest)

/-- A key with points. -/
def key? (cs : List Char) : Option (List String × List Char) :=
  keyFrom (cs.length + 1) cs

/-- What follows an equals sign and white space. -/
def afterEquals? : List Char → Option (List Char)
  | '=' :: rest => some (skipGap rest)
  | _ => none

mutual

/-- A value off the front of a text; `fuel` bounds the steps into and along lists and tables. -/
def valueFrom : Nat → List Char → Option (Json × List Char)
  | 0, _ => none
  | fuel + 1, cs =>
    match cs with
    | '[' :: rest => itemsFrom fuel [] rest
    | '{' :: rest =>
      match skipGap rest with
      | '}' :: rest => some (.object [], rest)
      | rest => membersFrom fuel [] rest
    | c :: _ =>
      if c = '"' || c = tick then (string? cs).map fun (s, rest) => (.text s, rest)
      else scalar? cs
    | [] => none

/-- The items of a list up to its end, over any number of lines, a comma after the last one or not.
The items read so far stand last one first. -/
def itemsFrom : Nat → List Json → List Char → Option (Json × List Char)
  | 0, _, _ => none
  | fuel + 1, done, cs =>
    match skipLines cs with
    | ']' :: rest => some (.list done.reverse, rest)
    | cs =>
      match valueFrom fuel cs with
      | none => none
      | some (v, rest) =>
        match skipLines rest with
        | ',' :: rest => itemsFrom fuel (v :: done) rest
        | ']' :: rest => some (.list (v :: done).reverse, rest)
        | _ => none

/-- The members of a table on one line up to its end. -/
def membersFrom : Nat → Tree.Members → List Char → Option (Json × List Char)
  | 0, _, _ => none
  | fuel + 1, done, cs =>
    match key? cs with
    | none => none
    | some (path, rest) =>
      match (afterEquals? rest).bind (valueFrom fuel) with
      | none => none
      | some (v, rest) =>
        match Tree.assign path v done with
        | none => none
        | some done =>
          match skipGap rest with
          | ',' :: rest => membersFrom fuel done rest
          | '}' :: rest => some (.object (Tree.membersToJson done), rest)
          | _ => none

end

/-- A value off the front of a text. -/
def value? (cs : List Char) : Option (Json × List Char) :=
  valueFrom (2 * cs.length + 2) cs

/-! ### Statements -/

/-- A statement. -/
inductive Statement where
  | table (path : List String)
  | item (path : List String)
  | assign (path : List String) (value : Json)

/-- The statement that starts a text, and the lines after it. -/
def statement? (cs : List Char) : Option (Statement × List Char) :=
  match cs with
  | '[' :: '[' :: rest => do
    let (path, rest) ← key? rest
    match rest with
    | ']' :: ']' :: rest => return (.item path, ← endLine? rest)
    | _ => none
  | '[' :: rest => do
    let (path, rest) ← key? rest
    match rest with
    | ']' :: rest => return (.table path, ← endLine? rest)
    | _ => none
  | cs => do
    let (path, rest) ← key? cs
    let (v, rest) ← value? (← afterEquals? rest)
    return (.assign path v, ← endLine? rest)

/-- The statements of a text, `fuel` at most. -/
def statementsFrom : Nat → List Char → Option (List Statement)
  | 0, _ => none
  | fuel + 1, cs =>
    match skipLines cs with
    | [] => some []
    | cs => do
      let (statement, rest) ← statement? cs
      let more ← statementsFrom fuel rest
      return statement :: more

/-- The statements of a text. -/
def statements? (cs : List Char) : Option (List Statement) :=
  statementsFrom (cs.length + 1) cs

/-- The keys with values at the front of statements, and the statements after them. -/
def leading : List Statement → List (List String × Json) × List Statement
  | .assign path v :: rest =>
    let (found, rest) := leading rest
    ((path, v) :: found, rest)
  | rest => ([], rest)

/-- Gives keys their values. -/
def fill (assigned : List (List String × Json)) (ms : Tree.Members) : Option Tree.Members :=
  assigned.foldlM (fun ms (path, v) => Tree.assign path v ms) ms

/-- Opens what a header names, with the keys and values under it.  The last key is the one that is
opened. -/
def openPath (enter : String → Tree.Members → Option Tree.Members) (path : List String)
    (ms : Tree.Members) : Option Tree.Members :=
  match path.getLast? with
  | some key => Tree.within path.dropLast (enter key) ms
  | none => none

/-- What statements build, `fuel` headers at most. -/
def buildFrom : Nat → List Statement → Tree.Members → Option Tree.Members
  | 0, _, _ => none
  | _ + 1, [], ms => some ms
  | fuel + 1, .table path :: rest, ms => do
    let (assigned, rest) := leading rest
    buildFrom fuel rest (← openPath (Tree.openTable (fill assigned)) path ms)
  | fuel + 1, .item path :: rest, ms => do
    let (assigned, rest) := leading rest
    buildFrom fuel rest (← openPath (Tree.openItem (fill assigned)) path ms)
  | fuel + 1, .assign path v :: rest, ms => do
    buildFrom fuel rest (← Tree.assign path v ms)

/-- The value of a document. -/
def parse (text : String) : Option Json := do
  let statements ← statements? text.toList
  let ms ← buildFrom (statements.length + 1) statements []
  return .object (Tree.membersToJson ms)

end Mailshot.Toml
