/-!
# Counters

What is counted while campaigns are mailed out.  Counts are added, so what several tasks count is
the sum of what each of them does.
-/

namespace Mailshot

/-- The counts. -/
structure Counters where
  /-- Dispatch runs. -/
  runs : Nat := 0
  /-- Campaigns that failed. -/
  campaignsFailed : Nat := 0
  /-- Batches that the provider took. -/
  batchesSent : Nat := 0
  /-- Batches that it did not take. -/
  batchErrors : Nat := 0
  /-- Recipients of both. -/
  recipientsAttempted : Nat := 0
  /-- Pages of audiences. -/
  pagesFetched : Nat := 0
  /-- Events that changed a row. -/
  updatesApplied : Nat := 0
  /-- Rows that could not be stored. -/
  persistErrors : Nat := 0
  /-- Events that nobody was there to take. -/
  eventsDropped : Nat := 0
  deriving DecidableEq, Repr, Inhabited

namespace Counters

/-- All counts at zero. -/
def zero : Counters := {}

/-- Counts taken together. -/
def add (a b : Counters) : Counters where
  runs := a.runs + b.runs
  campaignsFailed := a.campaignsFailed + b.campaignsFailed
  batchesSent := a.batchesSent + b.batchesSent
  batchErrors := a.batchErrors + b.batchErrors
  recipientsAttempted := a.recipientsAttempted + b.recipientsAttempted
  pagesFetched := a.pagesFetched + b.pagesFetched
  updatesApplied := a.updatesApplied + b.updatesApplied
  persistErrors := a.persistErrors + b.persistErrors
  eventsDropped := a.eventsDropped + b.eventsDropped

instance : Add Counters := ⟨add⟩

/-- The counts by name. -/
def toList (c : Counters) : List (String × Nat) :=
  [("dispatch.runs", c.runs), ("dispatch.campaigns_failed", c.campaignsFailed),
    ("dispatch.batches_sent", c.batchesSent), ("dispatch.batch_errors", c.batchErrors),
    ("dispatch.recipients_attempted", c.recipientsAttempted),
    ("audience.pages_fetched", c.pagesFetched), ("status.updates_applied", c.updatesApplied),
    ("status.persist_errors", c.persistErrors), ("status.events_dropped", c.eventsDropped)]

end Counters

end Mailshot
