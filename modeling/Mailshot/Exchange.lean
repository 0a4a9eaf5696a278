import Mailshot.Audience
import Mailshot.Json.Basic
import Mailshot.Registry

/-!
# Exchanges

Some registries side by side, with handlers that write down what they receive and may act on a
registry themselves: unregister a kind, forward to a kind, fail.

* `Exchange.dispatch`: a payload goes to a handler, and on from there.
-/

namespace Mailshot

/-- A handler that acts by rote. -/
structure Routine where
  name : String
  /-- The registry that the routine acts on. -/
  registry : Nat := 0
  unregister : Option String := none
  forward : Option String := none
  failure : Option (Reply Unit) := none
  deriving Inhabited

/-- What a routine writes down. -/
inductive Note where
  | received (name : String) (payload : Json)
  | unregistered (name : String) (found : Bool)
  deriving Inhabited

/-- Registries with what their routines wrote down, the last note first. -/
structure Exchange where
  registries : List (Registry Routine)
  notes : List Note := []
  deriving Inhabited

namespace Exchange

/-- The registry at a place. -/
def registry (x : Exchange) (place : Nat) : Registry Routine :=
  x.registries[place]?.getD {}

/-- Puts a registry in its place. -/
def setRegistry (x : Exchange) (place : Nat) (r : Registry Routine) : Exchange :=
  { x with registries := x.registries.set place r }

/-- Writes something down. -/
def note (x : Exchange) (n : Note) : Exchange :=
  { x with notes := n :: x.notes }

/-- Takes the handler of a kind away. -/
def unregister (x : Exchange) (place : Nat) (kind : String) : Bool × Exchange :=
  let (found, r) := (x.registry place).unregister kind
  (found, x.setRegistry place r)

/-- What a routine does about unregistering. -/
def tidy (h : Routine) (x : Exchange) : Exchange :=
  match h.unregister with
  | none => x
  | some kind =>
    let (found, x) := x.unregister h.registry kind
    x.note (.unregistered h.name found)

/-- What a routine hands on. -/
def forwarded (h : Routine) : Json :=
  .object [("from", .text h.name)]

/-- Hands a payload to the handler of its kind in one registry.  Payloads are handed on `fuel` times
at most. -/
def dispatchFrom : Nat → Nat → String → Json → Exchange → Reply Unit × Exchange
  | 0, _, _, _, x => (.crash "", x)
  | fuel + 1, place, kind, payload, x =>
    let handle (h : Routine) (payload : Json) (x : Exchange) : Reply Unit × Exchange :=
      let x := tidy h (x.note (.received h.name payload))
      let (reply, x) : Reply Unit × Exchange :=
        match h.forward with
        | none => (.ok (), x)
        | some next => dispatchFrom fuel h.registry next (forwarded h) x
      if reply.isOk then (h.failure.getD (.ok ()), x) else (reply, x)
    (x.registry place).dispatch handle kind payload x

/-- Hands a payload to the handler of its kind in one registry. -/
def dispatch (x : Exchange) (place : Nat) (kind : String) (payload : Json) :
    Reply Unit × Exchange :=
  dispatchFrom turnLimit place kind payload x

end Exchange

end Mailshot
