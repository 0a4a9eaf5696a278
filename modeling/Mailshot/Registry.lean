import Mailshot.Fault
import Mailshot.Table

/-!
# Handlers by kind

A registry knows one handler for each kind of payload.  Registering another displaces it.

* `Registry.register`, `Registry.unregister`: changes, with what was there before;
* `Registry.kinds`: the kinds that have a handler, in ascending order;
* `Registry.dispatch`: a payload goes to the handler of its kind.
-/

namespace Mailshot

/-- Handlers of type `η` by kind. -/
structure Registry (η : Type) where
  handlers : Table String η := .empty
  deriving Inhabited

namespace Registry

variable {η π σ : Type}

/-- The handler of a kind. -/
def handler? (r : Registry η) (kind : String) : Option η :=
  r.handlers.get? kind

/-- Gives a kind its handler, and gives back the one displaced. -/
def register (r : Registry η) (kind : String) (handler : η) : Option η × Registry η :=
  (r.handler? kind, ⟨r.handlers.insert kind handler⟩)

/-- Takes the handler of a kind away, and tells whether there was one. -/
def unregister (r : Registry η) (kind : String) : Bool × Registry η :=
  (r.handlers.contains kind, ⟨r.handlers.erase kind⟩)

/-- Has the kind a handler? -/
def isRegistered (r : Registry η) (kind : String) : Bool :=
  r.handlers.contains kind

/-- The kinds that have a handler, in ascending order of code points. -/
def kinds (r : Registry η) : List String :=
  r.handlers.keys.mergeSort fun a b => decide (a ≤ b)

/-- Hands a payload to the handler of its kind. -/
def dispatch (r : Registry η) (handle : η → π → σ → Reply Unit × σ) (kind : String) (payload : π)
    (s : σ) : Reply Unit × σ :=
  match r.handler? kind with
  | some handler => handle handler payload s
  | none => (.fault (.unknownPayload kind), s)

end Registry

end Mailshot
