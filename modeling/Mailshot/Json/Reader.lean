import Mailshot.Json.Token
import Mailshot.Table

/-!
# Reading JSON

A machine that takes one token at a time and keeps the open lists and objects on a stack.  It
accepts exactly the token sequences of one value, at most 127 brackets deep.

* `State.step`: what may come next and what it does;
* `parse`: the value of a text.
-/

namespace Mailshot.Json

/-- A list or object that is still open; what it holds so far stands last one first. -/
inductive Frame where
  | items (sofar : List Json)
  | member (sofar : List (String × Json)) (key : String)

/-- What the machine waits for, inside the frames that are open. -/
inductive State where
  /-- A value. -/
  | value (up : List Frame)
  /-- A value, or the end of the list just opened. -/
  | firstItem (up : List Frame)
  /-- A key, or the end of the object just opened. -/
  | firstKey (up : List Frame)
  /-- A key after a comma. -/
  | key (sofar : List (String × Json)) (up : List Frame)
  /-- The colon after a key. -/
  | colon (sofar : List (String × Json)) (key : String) (up : List Frame)
  /-- A comma or the end of a list. -/
  | afterItem (sofar : List Json) (up : List Frame)
  /-- A comma or the end of an object. -/
  | afterMember (sofar : List (String × Json)) (up : List Frame)
  /-- Nothing more. -/
  | done (value : Json)

namespace State

/-- Hands a complete value to the innermost open frame. -/
def finish (value : Json) : List Frame → State
  | [] => .done value
  | .items sofar :: up => .afterItem (value :: sofar) up
  | .member sofar k :: up => .afterMember ((k, value) :: sofar) up

/-- The object of members read, of equal keys the last one. -/
def close (sofar : List (String × Json)) : Json :=
  .object (sofar.foldr (fun (k, v) ms => Table.put k v ms) [])

/-- How deep brackets may nest. -/
def depthLimit : Nat := 127

/-- Opens a list or an object inside `up`, unless that is too deep. -/
def deeper (up : List Frame) (state : State) : Option State :=
  if up.length < depthLimit then some state else none

/-- The start of a value. -/
def beginValue (up : List Frame) : Token → Option State
  | .scalar v => some (finish v up)
  | .openList => deeper up (.firstItem up)
  | .openObject => deeper up (.firstKey up)
  | _ => none

/-- Takes one token. -/
def step : State → Token → Option State
  | .value up, t => beginValue up t
  | .firstItem up, .closeList => some (finish (.list []) up)
  | .firstItem up, t => beginValue (.items [] :: up) t
  | .firstKey up, .closeObject => some (finish (.object []) up)
  | .firstKey up, .scalar (.text k) => some (.colon [] k up)
  | .key sofar up, .scalar (.text k) => some (.colon sofar k up)
  | .colon sofar k up, .colon => some (.value (.member sofar k :: up))
  | .afterItem sofar up, .comma => some (.value (.items sofar :: up))
  | .afterItem sofar up, .closeList => some (finish (.list sofar.reverse) up)
  | .afterMember sofar up, .comma => some (.key sofar up)
  | .afterMember sofar up, .closeObject => some (finish (close sofar) up)
  | _, _ => none

end State

/-- The value of a token sequence. -/
def ofTokens? (tokens : List Token) : Option Json :=
  match tokens.foldlM State.step (.value []) with
  | some (.done v) => some v
  | _ => none

/-- The value of a text. -/
def parse (s : String) : Option Json := do
  ofTokens? (← Token.scan s.toList)

end Mailshot.Json
