import Mailshot.Fault
import Mailshot.Campaign

/-!
# The world outside

All that mailing out needs from elsewhere: which campaigns are due, their tenants, audiences and
templates, a provider that takes mail, and rows to keep up to date.  A world is given by what it
answers in a state and the state after; the calls for a campaign name it as their owner, and a world
may use that or not.

* `World`: the six calls;
* `World.recorded`: the same world, keeping an account of the calls made to it.
-/

namespace Mailshot

/-- What is asked of the source of an audience. -/
structure PageRequest where
  tenant : Tenant
  segment : Uuid
  cursor : String
  limit : Nat
  deriving DecidableEq, Repr, Inhabited

/-- What is handed to the provider in one call. -/
structure Mail where
  variant : Uuid
  sender : String
  recipients : List String
  subject : String
  html : String
  deriving DecidableEq, Repr, Inhabited

/-- The world outside, in states of type `σ`. -/
structure World (σ : Type) where
  /-- The campaigns that are pending and due at a second since the epoch. -/
  due (cutoff : Int) (s : σ) : Reply (List Campaign) × σ
  /-- Stores a campaign's row. -/
  update (row : Campaign) (s : σ) : Reply Unit × σ
  /-- The tenant of an identifier. -/
  tenant (owner id : Uuid) (s : σ) : Reply Tenant × σ
  /-- A page of an audience. -/
  page (owner : Uuid) (request : PageRequest) (s : σ) : Reply Page × σ
  /-- A template of a tenant. -/
  template (owner : Uuid) (tenant : Tenant) (id : Uuid) (s : σ) : Reply Template × σ
  /-- Hands mail to the provider. -/
  send (owner : Uuid) (mail : Mail) (s : σ) : Reply Unit × σ

/-- A call and how it came back. -/
inductive Call where
  | update (row : Campaign) (reply : Reply Unit)
  | tenant (owner id : Uuid) (reply : Reply Tenant)
  | page (owner : Uuid) (request : PageRequest) (reply : Reply Page)
  | template (owner : Uuid) (tenant : Tenant) (id : Uuid) (reply : Reply Template)
  | send (owner : Uuid) (mail : Mail) (reply : Reply Unit)
  deriving DecidableEq, Repr

/-- The state of a world with the calls made so far, the last one first. -/
structure Recorded (σ : Type) where
  state : σ
  calls : List Call := []

namespace World

/-- Makes a call and notes it. -/
def note (entry : Reply α → Call) (call : σ → Reply α × σ) (r : Recorded σ) :
    Reply α × Recorded σ :=
  let (reply, s) := call r.state
  (reply, ⟨s, entry reply :: r.calls⟩)

/-- The same world, keeping an account of the calls for campaigns. -/
def recorded (w : World σ) : World (Recorded σ) where
  due cutoff r :=
    let (reply, s) := w.due cutoff r.state
    (reply, { r with state := s })
  update row := note (.update row) (w.update row)
  tenant owner id := note (.tenant owner id) (w.tenant owner id)
  page owner request := note (.page owner request) (w.page owner request)
  template owner tenant id := note (.template owner tenant id) (w.template owner tenant id)
  send owner mail := note (.send owner mail) (w.send owner mail)

end World

/-! ### Views of an account -/

namespace Call

/-- The mail handed to the provider, in order, with how each call came back. -/
def mails (calls : List Call) : List (Uuid × Mail × Reply Unit) :=
  calls.reverse.filterMap fun
    | .send owner mail reply => some (owner, mail, reply)
    | _ => none

/-- The pages asked for, in order. -/
def pages (calls : List Call) : List PageRequest :=
  calls.reverse.filterMap fun
    | .page _ request _ => some request
    | _ => none

/-- The rows stored, in order. -/
def stored (calls : List Call) : List Campaign :=
  calls.reverse.filterMap fun
    | .update row (.ok _) => some row
    | _ => none

end Call

end Mailshot
