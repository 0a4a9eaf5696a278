import Mailshot.Ledger
import Mailshot.World
import Mailshot.Counters

/-!
# The desk

All events of a run go over one desk, in a queue of bounded length, to a single clerk who enters
them into the ledger and stores the row after each.  So every row has one writer.  A row that could
not be stored is counted, and the ledger keeps what was entered.  A crash while storing breaks the
clerk: what waits is lost, and later events are dropped.

* `Desk.offer`: an event comes in, if there is room;
* `Desk.work`: the clerk's next piece of work.  It closes the desk once nobody holds it and the
  queue is empty, so no event that came in is left behind.
-/

namespace Mailshot

/-- What the clerk does. -/
inductive Clerk where
  | waiting
  | storing (row : Campaign)
  | closed
  | broken (text : String)
  deriving DecidableEq, Repr, Inhabited

/-- The clerk with the queue, the first to be handled first. -/
structure Desk where
  capacity : Nat
  queue : List Event := []
  ledger : Ledger
  clerk : Clerk := .waiting
  deriving DecidableEq, Repr, Inhabited

namespace Desk

/-- A desk for some campaigns.  There is room for one event at least. -/
def opened (rows : List Campaign) (capacity : Nat) : Desk :=
  { capacity := max capacity 1, ledger := .ofRows rows }

/-- Has the clerk gone, in whatever way? -/
def isOver (d : Desk) : Bool :=
  match d.clerk with
  | .closed | .broken _ => true
  | _ => false

/-- An event comes in.  Without room it has to wait; without a clerk it is dropped. -/
def offer (d : Desk) (e : Event) : Option (Desk × Counters) :=
  if d.isOver then some (d, { eventsDropped := 1 })
  else if d.queue.length < d.capacity then some ({ d with queue := d.queue ++ [e] }, {})
  else none

/-- What the clerk does after an entry: a row is stored. -/
def afterEntry (e : Entry) : Clerk :=
  match e.row with
  | some row => .storing row
  | none => .waiting

/-- The clerk's next piece of work at time `now`, none while there is nothing to do.  `held` says
whether more events may come. -/
def work (w : World σ) (now : Instant) (held : Bool) (d : Desk) (s : σ) :
    Option (Desk × Counters × σ) :=
  match d.clerk with
  | .waiting =>
    match d.queue with
    | e :: rest =>
      let entry := d.ledger.entry now e
      some ({ d with queue := rest, ledger := d.ledger.enter now e, clerk := afterEntry entry },
        { updatesApplied := if entry.changed then 1 else 0 }, s)
    | [] => if held then none else some ({ d with clerk := .closed }, {}, s)
  | .storing row =>
    match w.update row s with
    | (.ok _, s) => some ({ d with clerk := .waiting }, {}, s)
    | (.fault _, s) => some ({ d with clerk := .waiting }, { persistErrors := 1 }, s)
    | (.crash text, s) => some ({ d with queue := [], clerk := .broken text }, {}, s)
  | .closed | .broken _ => none

end Desk

end Mailshot
