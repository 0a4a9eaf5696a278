import Mailshot.Desk
import Mailshot.Worker

/-!
# Runs

A run mails out the campaigns that are due.  The foreman starts a worker for each, in order, as long
as fewer are at work than may be; then looks after the workers in the same order, reports those that
broke, and lets go of the desk; the clerk finishes what waits.  Nothing is shared but the desk and
the world, so a campaign that fails never stops another.

* `Run.step`: one turn of the foreman, a worker or the clerk;
* `Run.Step`, `Run.Reach`: any turn, and any number of them, which is all that concurrency can do;
* `Run.play`: the turns that are taken when the program runs.
-/

namespace Mailshot

/-- Where the foreman stands. -/
inductive Foreman where
  | starting
  /-- Waits for the worker at place `i` to end. -/
  | joining (i : Nat)
  /-- Reports the worker at place `i`, which broke. -/
  | reporting (i : Nat) (campaign : Uuid) (text : String)
  /-- Waits for the clerk. -/
  | closing
  | finished
  deriving DecidableEq, Repr, Inhabited

/-- A run under way. -/
structure Run (σ : Type) where
  /-- The campaigns that have no worker yet. -/
  waiting : List Campaign
  workers : List Worker := []
  foreman : Foreman := .starting
  desk : Desk
  /-- The faults of the workers seen so far, the last one first. -/
  faults : List Fault := []
  counters : Counters := {}
  world : σ

/-- Whose turn it is. -/
inductive Run.Turn where
  | foreman
  | worker (i : Nat)
  | clerk (now : Instant)
  deriving DecidableEq, Repr

namespace Run

/-- Starts on due campaigns. -/
def start (room : Mailroom σ) (due : List Campaign) (s : σ) : Run σ :=
  { waiting := due, desk := .opened due (room.settings.eventBuffer due.length), world := s }

/-- The workers that have not ended. -/
def busy (r : Run σ) : List Worker :=
  r.workers.filter fun k => !k.isOver

/-- The workers with a call to the provider under way. -/
def sending (r : Run σ) : List Worker :=
  r.workers.filter (·.isSending)

/-- Does the foreman hold the desk? -/
def foremanHolds (r : Run σ) : Bool :=
  match r.foreman with
  | .closing | .finished => false
  | _ => true

/-- Is the desk held by anyone? -/
def held (r : Run σ) : Bool :=
  r.foremanHolds || !r.busy.isEmpty

/-- What is reported of a worker that broke, with the name of its task. -/
def brokenEvent (campaign : Uuid) (task text : String) : Event :=
  .failed campaign (Fault.brokenTask text task)

/-- The fault of a worker that broke, with the name of its task. -/
def brokenFault (campaign : Uuid) (task text : String) : Fault :=
  (Fault.worker (Fault.brokenTask text task)).forCampaign campaign

/-- The foreman's turn. -/
def foremanStep (room : Mailroom σ) (r : Run σ) : Option (Run σ) :=
  match r.foreman with
  | .starting =>
    match r.waiting with
    | [] => some { r with foreman := .joining 0 }
    | c :: rest =>
      if r.busy.length < room.settings.concurrency then
        some { r with waiting := rest, workers := r.workers ++ [{ campaign := c }] }
      else none
  | .joining i =>
    match r.workers[i]? with
    | none => some { r with foreman := .closing }
    | some k =>
      match k.phase with
      | .ended (.mailed _) => some { r with foreman := .joining (i + 1) }
      | .ended (.failed cause) =>
        some { r with foreman := .joining (i + 1), faults := cause :: r.faults }
      | .ended (.broken text) =>
        some { r with foreman := .reporting i k.campaign.id text,
                      counters := r.counters + Worker.failure }
      | _ => none
  | .reporting i campaign text =>
    (r.desk.offer (brokenEvent campaign (room.task i) text)).map fun (desk, counters) =>
      { r with foreman := .joining (i + 1)
               faults := brokenFault campaign (room.task i) text :: r.faults
               desk
               counters := r.counters + counters }
  | .closing => if r.desk.isOver then some { r with foreman := .finished } else none
  | .finished => none

/-- The turn of the worker at place `i`. -/
def workerStep (room : Mailroom σ) (r : Run σ) (i : Nat) : Option (Run σ) :=
  match r.workers[i]? with
  | none => none
  | some k =>
    match k.report room with
    | some (e, phase) =>
      (r.desk.offer e).map fun (desk, counters) =>
        { r with workers := r.workers.set i { k with phase }, desk,
                 counters := r.counters + counters }
    | none =>
      (k.act room r.world).map fun (phase, counters, world) =>
        { r with workers := r.workers.set i { k with phase },
                 counters := r.counters + counters, world }

/-- The clerk's turn. -/
def clerkStep (room : Mailroom σ) (r : Run σ) (now : Instant) : Option (Run σ) :=
  (r.desk.work room.world now r.held r.world).map fun (desk, counters, world) =>
    { r with desk, counters := r.counters + counters, world }

/-- Takes a turn, none where the one whose turn it is has to wait or is done. -/
def step (room : Mailroom σ) (r : Run σ) : Turn → Option (Run σ)
  | .foreman => foremanStep room r
  | .worker i => workerStep room r i
  | .clerk now => clerkStep room r now

/-- Some turn leads from one state to the next. -/
def Step (room : Mailroom σ) (r t : Run σ) : Prop :=
  ∃ turn, step room r turn = some t

/-- Some turns lead from one state to another. -/
inductive Reach (room : Mailroom σ) (r : Run σ) : Run σ → Prop where
  | refl : Reach room r r
  | tail {t u} : Reach room r t → Step room t u → Reach room r u

/-! ### The turns taken -/

/-- The turns to try, in order: calls under way come back only when nobody else can go on, so they
overlap as much as they may. -/
def turns (now : Instant) (r : Run σ) : List Turn :=
  let places := r.workers.zipIdx
  let able := places.filter fun p => !p.1.isOver && !p.1.isSending
  let sending := places.filter fun p => p.1.isSending
  .foreman :: able.map (fun p => .worker p.2) ++ .clerk now :: sending.map fun p => .worker p.2

/-- Takes turns until nobody can go on, and notes the most calls under way at one time. -/
def playFrom (room : Mailroom σ) (now : Instant) : Nat → Nat → Run σ → Run σ × Nat
  | 0, peak, r => (r, peak)
  | fuel + 1, peak, r =>
    match (r.turns now).findSome? (step room r) with
    | some t => playFrom room now fuel (max peak t.sending.length) t
    | none => (r, peak)

/-- A run over due campaigns from start to end, with the most calls under way at one time. -/
def play (room : Mailroom σ) (now : Instant) (due : List Campaign) (s : σ) : Run σ × Nat :=
  playFrom room now turnLimit 0 (start room due s)

/-! ### What is told of a run -/

/-- The fault of the first campaign, in due order, whose worker failed or broke. -/
def firstFault (r : Run σ) : Option Fault :=
  r.faults.getLast?

/-- The campaigns that sent everything: running, at full progress. -/
def completed (r : Run σ) : List Campaign :=
  r.desk.ledger.rows.filter fun c => c.status = .running && c.progress = 100

/-- What is told of the campaigns that were mailed out, in due order. -/
def summaries (r : Run σ) : List Summary :=
  r.workers.filterMap fun k =>
    match k.phase with
    | .ended (.mailed summary) => some summary
    | _ => none

end Run

end Mailshot
