import Mailshot.Uuid
import Mailshot.Instant.Basic

/-!
# Campaigns

A campaign sends one mailing to the audience of a segment, split across its variants.  While it
runs, its row changes only by deltas, which say for some of four fields what they become.

* `Campaign.isDue`: is it time to send?
* `Campaign.apply`: the row after a delta, and whether anything changed;
* `Event.running`, `Event.progress`, `Event.failed`: the deltas that a run uses.
-/

namespace Mailshot

/-- Where a campaign stands.  One that has sent everything stays running, at full progress. -/
inductive Status where
  | pending
  | running
  | failed
  deriving DecidableEq, Repr, Inhabited

/-- A variant of a campaign: a template, a subject and a share of the audience in percent. -/
structure Variant where
  id : Uuid
  campaign : Uuid
  template : Uuid
  subject : String
  ratio : Nat
  opens : Nat := 0
  clicks : Nat := 0
  deriving DecidableEq, Repr, Inhabited

/-- A campaign. -/
structure Campaign where
  id : Uuid
  tenant : Uuid
  name : String
  description : Option String := none
  segment : Uuid
  /-- The size of the audience, once that is known. -/
  segmentSize : Nat := 0
  /-- Percent of the audience that was mailed to. -/
  progress : Nat := 0
  status : Status := .pending
  failureReason : Option String := none
  variants : List Variant
  /-- The second since the epoch from which on the campaign is due. -/
  schedule : Int
  createdAt : Instant
  updatedAt : Instant
  deriving DecidableEq, Repr, Inhabited

/-- Whoever sends campaigns. -/
structure Tenant where
  id : Uuid
  name : String
  /-- The sender of the tenant's mail, where it has one of its own. -/
  fromEmail : Option String := none
  deriving DecidableEq, Repr, Inhabited

/-- A stored mail body. -/
structure Template where
  id : Uuid
  tenant : Uuid
  name : String
  body : String
  deriving DecidableEq, Repr, Inhabited

/-- One page of an audience, and where the next one starts; an empty cursor means there is none. -/
structure Page where
  recipients : List String
  nextCursor : String
  deriving DecidableEq, Repr, Inhabited

/-- What some fields of a campaign become. -/
structure Delta where
  status : Option Status := none
  segmentSize : Option Nat := none
  progress : Option Nat := none
  failureReason : Option String := none
  deriving DecidableEq, Repr, Inhabited

/-- A delta for a campaign. -/
structure Event where
  campaign : Uuid
  delta : Delta
  deriving DecidableEq, Repr, Inhabited

namespace Event

/-- The audience is known and sending begins. -/
def running (campaign : Uuid) (segmentSize : Nat) : Event :=
  ⟨campaign, { status := some .running, segmentSize := some segmentSize }⟩

/-- More of the audience was mailed to. -/
def progress (campaign : Uuid) (percent : Nat) : Event :=
  ⟨campaign, { progress := some percent }⟩

/-- The campaign broke off. -/
def failed (campaign : Uuid) (reason : String) : Event :=
  ⟨campaign, { status := some .failed, failureReason := some reason }⟩

end Event

namespace Campaign

/-- A campaign is due while it is pending, from its schedule on. -/
def isDue (c : Campaign) (cutoff : Int) : Bool :=
  c.status = .pending && c.schedule ≤ cutoff

/-- The shares of the variants, in order. -/
def ratios (c : Campaign) : List Nat :=
  c.variants.map (·.ratio)

/-- Progress stops at a hundred percent. -/
def cap (percent : Nat) : Nat := min percent 100

/-- The row with the fields of a delta, the time of change aside. -/
def merge (c : Campaign) (d : Delta) : Campaign :=
  { c with
    status := d.status.getD c.status
    segmentSize := d.segmentSize.getD c.segmentSize
    progress := (d.progress.map cap).getD c.progress
    failureReason := d.failureReason.or c.failureReason }

/-- The row after a delta at time `now`, and whether anything changed.  The time of change is kept
where nothing did. -/
def apply (now : Instant) (c : Campaign) (d : Delta) : Campaign × Bool :=
  if c.merge d = c then (c, false) else ({ c.merge d with updatedAt := now }, true)

/-- Was the row ever changed? -/
def isTouched (c : Campaign) : Bool :=
  c.updatedAt ≠ c.createdAt

end Campaign

end Mailshot
