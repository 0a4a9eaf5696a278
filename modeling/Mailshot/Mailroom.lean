import Mailshot.World
import Mailshot.Settings.Basic

/-!
# The mailroom

Where campaigns are mailed out: a world to work with, the settings, the sender of mail for tenants
that have none of their own, and what the tasks of workers are called.

Names of tasks are not chosen here.  Whatever runs the tasks numbers them through the whole process,
so the worker for a campaign has another name in the next run, or with more workers before it.  Names
are seen only in what is told of a task that broke.
-/

namespace Mailshot

/-- All tasks have one name, which tells nothing. -/
def Mailroom.unnamed : Nat → String := fun _ => Fault.unnamedTask

/-- A mailroom that works with a world. -/
structure Mailroom (σ : Type) where
  world : World σ
  settings : DispatchSettings := {}
  /-- The sender for tenants without one. -/
  sender : String
  /-- What the task of the worker at a place is called. -/
  task : Nat → String := Mailroom.unnamed

namespace Mailroom

/-- Who a tenant's mail is from. -/
def senderFor (room : Mailroom σ) (tenant : Tenant) : String :=
  tenant.fromEmail.getD room.sender

end Mailroom

end Mailshot
