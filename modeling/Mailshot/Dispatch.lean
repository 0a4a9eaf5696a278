import Mailshot.Run

/-!
# Dispatch

One dispatch asks for the campaigns that are due and runs them.  A fault of the question is its
result, unchanged.  Of the faults of the run, that of the first failing campaign is the result, for
information only: what other campaigns did is not undone.

* `Mailroom.dispatch`: all of that, with a report.
-/

namespace Mailshot

/-- The result of a dispatch. -/
inductive Verdict where
  | ok
  | failed (cause : Fault)
  /-- The dispatch itself broke off. -/
  | broken
  deriving DecidableEq, Repr, Inhabited

/-- The numbers of a run: its campaigns, those that sent everything, those whose worker failed. -/
structure Totals where
  campaigns : Nat
  completed : Nat
  failed : Nat
  deriving DecidableEq, Repr, Inhabited

/-- What is told of a dispatch. -/
structure Report where
  verdict : Verdict
  /-- The number of due campaigns, once it is known. -/
  due : Option Nat := none
  /-- The events that the clerk handled, unless it broke. -/
  handled : Option Nat := none
  /-- Not told where nothing was due or the clerk broke. -/
  totals : Option Totals := none
  summaries : List Summary := []
  counters : Counters := {}
  /-- The most calls to the provider under way at one time. -/
  peak : Nat := 0
  deriving DecidableEq, Repr, Inhabited

/-- More events than this cannot wait, and more workers than this cannot be told apart. -/
def slotLimit : Nat := 2305843009213693951

namespace Mailroom

/-- Can a run over some campaigns be set up? -/
def admits (room : Mailroom σ) (campaigns : Nat) : Bool :=
  room.settings.eventBuffer campaigns ≤ slotLimit && room.settings.concurrency ≤ slotLimit

/-- The report of a run that ended. -/
def report (due : Nat) (r : Run σ) (peak : Nat) : Report where
  verdict := r.firstFault.elim .ok .failed
  due := some due
  handled := if r.desk.clerk = .closed then some r.desk.ledger.entries.length else none
  totals :=
    if r.desk.clerk = .closed then
      some ⟨r.workers.length, r.completed.length, r.faults.length⟩
    else none
  summaries := r.summaries
  counters := r.counters
  peak

/-- A dispatch is counted before anything else. -/
def opening : Counters := { runs := 1 }

/-- Mails out what is due at a second since the epoch.  The rows change at time `now`. -/
def dispatch (room : Mailroom σ) (cutoff : Int) (now : Instant) (s : σ) : Report × σ :=
  match room.world.due cutoff s with
  | (.fault cause, s) => ({ verdict := .failed cause, counters := opening }, s)
  | (.crash _, s) => ({ verdict := .broken, counters := opening }, s)
  | (.ok [], s) => ({ verdict := .ok, due := some 0, counters := opening }, s)
  | (.ok due, s) =>
    if room.admits due.length then
      let (r, peak) := Run.play room now due s
      let told := report due.length r peak
      ({ told with counters := opening + told.counters }, r.world)
    else ({ verdict := .broken, due := some due.length, counters := opening }, s)

end Mailroom

end Mailshot
