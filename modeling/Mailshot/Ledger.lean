import Mailshot.Campaign

/-!
# The ledger

While campaigns run, their rows are kept in a ledger.  Events are entered one at a time, each with
the row that came of it, so the account tells what became of every campaign.  An event for a
campaign that has no row is entered too and changes nothing.

* `Ledger.enter`: the ledger after an event;
* `Ledger.events`, `Ledger.states`: what was entered, and the rows that a campaign went through.
-/

namespace Mailshot

/-- An event that was entered, the row after it where its campaign has one, and whether the row
changed. -/
structure Entry where
  event : Event
  row : Option Campaign
  changed : Bool
  deriving DecidableEq, Repr, Inhabited

/-- Rows with the account of what was entered, the last entry first. -/
structure Ledger where
  rows : List Campaign
  entries : List Entry := []
  deriving DecidableEq, Repr, Inhabited

namespace Ledger

/-- Rows by identifier: of rows with the same one, the last counts. -/
def distinct : List Campaign → List Campaign
  | [] => []
  | c :: rest => if rest.any (·.id = c.id) then distinct rest else c :: distinct rest

/-- Starts on rows. -/
def ofRows (rows : List Campaign) : Ledger :=
  { rows := distinct rows }

/-- The row of a campaign. -/
def row? (l : Ledger) (id : Uuid) : Option Campaign :=
  l.rows.find? (·.id = id)

/-- Puts a row in the place of the one with its identifier. -/
def replace (row : Campaign) (rows : List Campaign) : List Campaign :=
  rows.map fun c => if c.id = row.id then row else c

/-- What comes of an event at time `now`. -/
def entry (l : Ledger) (now : Instant) (e : Event) : Entry :=
  match l.row? e.campaign with
  | none => ⟨e, none, false⟩
  | some c => ⟨e, some (c.apply now e.delta).1, (c.apply now e.delta).2⟩

/-- Enters an event at time `now`. -/
def enter (l : Ledger) (now : Instant) (e : Event) : Ledger :=
  let entry := l.entry now e
  { rows := entry.row.elim l.rows fun row => replace row l.rows
    entries := entry :: l.entries }

/-- The events entered, in order. -/
def events (l : Ledger) : List Event :=
  l.entries.reverse.map (·.event)

/-- The rows that a campaign went through, in order. -/
def states (l : Ledger) (id : Uuid) : List Campaign :=
  (l.entries.reverse.filter (·.event.campaign = id)).filterMap (·.row)

end Ledger

end Mailshot
