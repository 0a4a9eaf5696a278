import Mailshot.Command.Flag
import Mailshot.Number.Decimal
import Mailshot.Share
import Mailshot.Text.Similarity

/-!
# Arguments of the command

Arguments are read from left to right, and the first that cannot be right ends the reading.  A flag
is given once at most.  Its value follows after an equals sign or is the next argument, unless that
one is written like a flag.  A value that came as an argument of its own is looked at when the next
flag is known for one, or at the end, so a complaint about what follows may come before one about
the value.

* `Request`: what the arguments ask for;
* `Refusal`: what is wrong with them;
* `Arguments.parse`: the one or the other;
* `Choices.fill`: choices from the environment.
-/

namespace Mailshot.Command

open Number (Decimal.Flaw Decimal.natTo)

/-- What a session is asked to do. -/
structure Choices where
  config : Option String := none
  nodeId : Option String := none
  concurrency : Option Nat := none
  pollInterval : Option Nat := none
  once : Bool := false
  demo : Bool := false
  deriving DecidableEq, Repr, Inhabited

/-- What the arguments ask for. -/
inductive Request where
  | run (choices : Choices)
  | help
  | version
  deriving DecidableEq, Repr, Inhabited

/-- What is wrong with the arguments. -/
inductive Refusal where
  /-- No such argument is known; there may be a flag much like it.  `usage` are flags to tell. -/
  | unexpected (argument : String) (similar : Option Flag) (usage : List Flag)
  /-- The flag takes no value. -/
  | unexpectedValue (value : String) (flag : Flag) (usage : List Flag)
  | missingValue (flag : Flag)
  | repeated (flag : Flag)
  | invalidValue (value : String) (flag : Flag) (flaw : Decimal.Flaw)
  deriving DecidableEq, Repr

/-- An argument by the way it is written. -/
inductive Argument where
  /-- Two hyphens alone: no flag follows. -/
  | divider
  | long (name : String) (value : Option String)
  | short (letter : Char)
  | plain
  deriving DecidableEq, Repr

/-- How an argument is written. -/
def Argument.ofString (argument : String) : Argument :=
  match argument.toList with
  | ['-', '-'] => .divider
  | '-' :: '-' :: cs =>
    let name := String.ofList (cs.takeWhile (· ≠ '='))
    match cs.dropWhile (· ≠ '=') with
    | _ :: value => .long name (some (String.ofList value))
    | [] => .long name none
  | '-' :: letter :: _ => .short letter
  | _ => .plain

/-- A flag that takes a value, with the value once it has come. -/
structure Pending where
  flag : Flag
  value : Option String := none
  deriving DecidableEq, Repr

/-- How far the reading has come. -/
structure Reading where
  choices : Choices := {}
  /-- The flags taken so far. -/
  given : List Flag := []
  pending : Option Pending := none
  deriving Repr, Inhabited

namespace Reading

/-- The choice that a flag makes. -/
def choose (c : Choices) (flag : Flag) (value : String) : Except Refusal Choices :=
  let number := (Decimal.natTo Share.limit value.toList).mapError (.invalidValue value flag)
  match flag with
  | .config => .ok { c with config := some value }
  | .nodeId => .ok { c with nodeId := some value }
  | .concurrency => number.map fun n => { c with concurrency := some n }
  | .pollInterval => number.map fun n => { c with pollInterval := some n }
  | .once => .ok { c with once := true }
  | .demo => .ok { c with demo := true }
  | .help => .ok c
  | .version => .ok c

/-- Flags with one more, unless it is among them. -/
def including (flag : Flag) (flags : List Flag) : List Flag :=
  if flag ∈ flags then flags else flags ++ [flag]

/-- Takes a flag, or tells what is wrong with it.  A repeated flag counts as not given at all, one
with a wrong value as given. -/
def take (r : Reading) (flag : Flag) (value : Option String) : Option Refusal × Reading :=
  if flag.value?.isSome && value.isNone then (some (.missingValue flag), r)
  else if flag ∈ r.given then (some (.repeated flag), { r with given := r.given.erase flag })
  else
    let r := { r with given := r.given ++ [flag] }
    match choose r.choices flag (value.getD "") with
    | .ok choices => (none, { r with choices })
    | .error refusal => (some refusal, r)

/-- Takes the pending flag, if there is one. -/
def settle (r : Reading) : Option Refusal × Reading :=
  match r.pending with
  | some ⟨flag, value⟩ => { r with pending := none }.take flag value
  | none => (none, r)

/-- A refusal, if there is one, ends the reading. -/
def checked : Option Refusal × Reading → Except Refusal Reading
  | (some refusal, _) => .error refusal
  | (none, r) => .ok r

/-- A flag after the pending one.  Help and version end the reading. -/
def accept (r : Reading) (flag : Flag) (value : Option String) :
    Except Refusal (Request ⊕ Reading) := do
  let r ← checked r.settle
  if flag.value?.isSome && value.isNone then return .inr { r with pending := some ⟨flag, none⟩ }
  let r ← checked (r.take flag value)
  match flag with
  | .help => return .inl .help
  | .version => return .inl .version
  | _ => return .inr r

/-- The refusal of an unknown name.  What is wrong with the pending flag goes unsaid. -/
def unknown (r : Reading) (name : String) : Refusal :=
  let given := r.settle.2.given
  let similar := Text.mostAlike? Flag.name name Flag.all
  .unexpected s!"--{name}" similar (similar.elim given fun flag => including flag given)

/-- One more argument.  Plain ones are values; there is no other use for them. -/
def next (r : Reading) (argument : String) : Except Refusal (Request ⊕ Reading) :=
  match Argument.ofString argument with
  | .long name value =>
    match Flag.ofName? name, value with
    | none, _ => .error (r.unknown name)
    | some flag, some text =>
      if flag.value?.isSome then r.accept flag (some text)
      else .error (.unexpectedValue text flag (including flag r.given))
    | some flag, none => r.accept flag none
  | .short letter =>
    match Flag.ofLetter? letter with
    | none => .error (.unexpected s!"-{letter}" none [])
    | some flag => r.accept flag none
  | _ =>
    match r.pending with
    | some ⟨flag, none⟩ => .ok (.inr { r with pending := some ⟨flag, some argument⟩ })
    | _ => .error (.unexpected argument none [])

/-- What the reading comes to when nothing follows. -/
def finish (r : Reading) : Except Refusal Request :=
  (checked r.settle).map fun r => .run r.choices

/-- Reads the arguments that are left. -/
def read : List String → Reading → Except Refusal Request
  | [], r => r.finish
  | argument :: rest, r =>
    match Argument.ofString argument, rest with
    | .divider, [] => r.finish
    | .divider, extra :: _ => .error (.unexpected extra none [])
    | _, _ =>
      match r.next argument with
      | .error refusal => .error refusal
      | .ok (.inl request) => .ok request
      | .ok (.inr r) => read rest r

end Reading

/-- What arguments ask for, or what is wrong with them. -/
def Arguments.parse (arguments : List String) : Except Refusal Request :=
  Reading.read arguments {}

/-- The value of a flag in the environment. -/
def Flag.valueIn (flag : Flag) (vars : List (String × String)) : Option String :=
  flag.envName?.bind fun name => vars.lookup name

/-- Choices, with those of the environment where none is made. -/
def Choices.fill (c : Choices) (vars : List (String × String)) : Choices :=
  { c with
    config := c.config.or (Flag.config.valueIn vars)
    nodeId := c.nodeId.or (Flag.nodeId.valueIn vars) }

end Mailshot.Command
