import Mailshot.Proofs.Lifecycle
import Mailshot.Proofs.Rehearsal
import Mailshot.Proofs.Run.Count
import Mailshot.Proofs.Worker.Setback

/-!
# The counters account for the run

Each count of a run that is over is a number read off what can be seen of it: the calls with their
replies, the events entered, and the rows at the end.  A campaign that fails is counted once, by its
worker if that comes back with a fault and by the foreman if it breaks, and in both cases its row at
the end says so.

* `Call.sum_tick_by_counter`: what calls add, by counter;
* `Ledger.changes_eq_sum`: the changes of all rows are those of each;
* `Run.Chronicle.failed_iff`: the row at the end tells whether the worker failed or broke;
* `Run.Chronicle.accounts`: all counters of a run.
-/

namespace Mailshot

/-- Did the call come back with a fault? -/
def Reply.isFault {α : Type} : Reply α → Bool
  | fault _ => true
  | _ => false

/-- A call that came back did so with a value or with a fault. -/
theorem Reply.countP_returns {α β : Type} (made : List (α × Reply β)) :
    made.countP (·.2.isOk) + made.countP (·.2.isFault) = made.countP fun p => p.2.Returns := by
  induction made with
  | nil => rfl
  | cons p rest ih =>
      obtain ⟨a, reply⟩ := p
      simp only [List.countP_cons, ← ih]
      cases reply <;> simp [isOk, isFault, Returns] <;> omega

namespace Call

/-- **What calls add to the counters**: the mail that was taken and the mail that was refused, their
recipients, the pages that arrived, and the rows that were refused. -/
theorem sum_tick_by_counter (calls : List Call) :
    (calls.map tick).sum =
      { batchesSent := (posted calls).countP (·.2.isOk)
        batchErrors := (posted calls).countP (·.2.isFault)
        recipientsAttempted := Worker.handed ((posted calls).filter fun p => p.2.Returns)
        pagesFetched := (arrived calls).length
        persistErrors := (rows calls).countP (·.2.isFault) } := by
  induction calls with
  | nil => rfl
  | cons made rest ih =>
      rw [List.map_cons, List.sum_cons, ih]
      show Counters.add _ _ = _
      cases made with
      | tenant | template => simp [Counters.add, tick, posted, arrived, rows]
      | update row reply =>
          cases reply <;>
            simp [Counters.add, tick, posted, arrived, rows, Reply.isFault, Nat.add_comm]
      | page owner request reply =>
          cases reply <;>
            simp [Counters.add, tick, Pager.tick, posted, arrived, rows, Nat.add_comm]
      | send owner mail reply =>
          cases reply <;>
            simp [Counters.add, tick, Tally.tick, posted, arrived, rows, Reply.isOk, Reply.isFault,
              Reply.Returns, Worker.handed, Nat.add_comm]

end Call

/-! ### Changes -/

namespace Ledger

/-- **The changes of all rows** are those of each, where only rows of some campaigns are changed. -/
theorem changes_eq_sum {l : Ledger} {ids : List Uuid} (hids : ids.Nodup)
    (hothers : ∀ id, id ∉ ids → l.changesOf id = 0) :
    l.changes = (ids.map l.changesOf).sum := by
  have hknown : (l.entries.filter (·.changed)).map (·.event.campaign) ⊆ ids := by
    intro id hid
    by_contra hnot
    have hnone := hothers id hnot
    rw [← count_changed, List.count_eq_zero] at hnone
    exact hnone hid
  have hlength := length_eq_sum_count hids hknown
  rw [List.length_map, ← List.countP_eq_length_filter] at hlength
  rw [changes, hlength]
  exact congrArg List.sum (List.map_congr_left fun id _ => count_changed l id)

end Ledger

/-- Whether an event changes a row does not depend on when the row was changed before. -/
theorem Campaign.changes_timeless (c : Campaign) (events : List Event) :
    c.timeless.changes events = c.changes events := by
  induction events generalizing c with
  | nil => rfl
  | cons e rest ih =>
      rw [changes, changes, ← timeless_merge, ih]
      simp only [timeless_merge, merge_timeless_iff]

/-! ### Failures -/

/-- A row for which a failure was told last has failed. -/
theorem Campaign.status_after_failed (c : Campaign) (events : List Event) (id : Uuid)
    (reason : String) : (c.after (events ++ [.failed id reason])).status = .failed := by
  simp [after, Event.failed, merge]

namespace Run

variable {σ : Type} {room : Mailroom σ} {due : List Campaign} {capacity : Nat} {s : σ} {r : Run σ}
  {past : List (Turn × Deed)} {i : Nat} {c : Campaign} {o : Outcome}

/-- Has the campaign failed, by its row at the desk? -/
def hasFailed (r : Run σ) (c : Campaign) : Bool :=
  (r.desk.ledger.row? c.id).any (·.status = .failed)

/-- **The row at the end tells** whether the worker of the campaign failed or broke. -/
theorem Chronicle.failed_iff (hids : (due.map (·.id)).Nodup)
    (h : Chronicle room (opened due capacity s) past r) (hstored : Stored past)
    (hfinished : r.foreman = .finished) (hk : r.workers[i]? = some ⟨c, .ended o⟩) :
    r.hasFailed c = (Worker.hasFailed ⟨c, .ended o⟩ || Worker.hasBroken ⟨c, .ended o⟩) := by
  obtain ⟨row, hrow, htimeless⟩ := h.final_row hids hstored hfinished hk
  have hstatus : row.status = (c.timeless.after (Deed.events (deedsOf i past) ++
      (Worker.parting? (room.task i) ⟨c, .ended o⟩).toList)).status := by
    rw [← htimeless]
    rfl
  have hstage := (h.course hk).stage
  rw [hasFailed, hrow, Option.any_some, hstatus]
  cases o with
  | mailed summary =>
      have hunderway := hstage.tale.2 (by simp)
      have hevents : Deed.events (deedsOf i past) ≠ [] := hstage.told (by simp)
      have hrunning := Campaign.status_after_underway hunderway hevents c.timeless
      simp [Worker.parting?, Worker.hasFailed, Worker.hasBroken, hrunning]
  | failed cause =>
      obtain ⟨before, made, source, hcalls, hraised, -⟩ := (h.course hk).of_failed
      obtain ⟨-, -, -, hevents⟩ := (h.course hk).setback hcalls hraised
      rw [hevents, Worker.parting?, Option.toList_none, List.append_nil,
        Campaign.status_after_failed]
      rfl
  | broken text =>
      have hfailed := Campaign.status_after_failed c.timeless (Deed.events (deedsOf i past)) c.id
        (Fault.brokenTask text (room.task i))
      simpa [Worker.parting?, Worker.hasFailed, Worker.hasBroken, brokenEvent] using hfailed

/-- At the end of a run every worker has ended. -/
theorem Chronicle.ended_of_mem (h : Chronicle room (opened due capacity s) past r)
    (hfinished : r.foreman = .finished) {k : Worker} (hk : k ∈ r.workers) :
    ∃ (i : Nat) (c : Campaign) (o : Outcome), r.workers[i]? = some ⟨c, .ended o⟩ ∧
      k = ⟨c, .ended o⟩ := by
  obtain ⟨i, hi⟩ := List.mem_iff_getElem?.mp hk
  obtain ⟨o, hended⟩ := h.ended_of_finished hfinished (h.due_at hi)
  exact ⟨i, k.campaign, o, hended, Option.some.inj (hi.symm.trans hended)⟩

/-- No worker both failed and broke. -/
theorem countP_setbacks (workers : List Worker) :
    workers.countP (fun k => k.hasFailed || k.hasBroken) =
      workers.countP (·.hasFailed) + workers.countP (·.hasBroken) := by
  induction workers with
  | nil => rfl
  | cons k rest ih =>
      have hnot : k.hasFailed = true → k.hasBroken = false := by
        unfold Worker.hasFailed Worker.hasBroken
        cases k.phase with
        | ended o => cases o <;> simp
        | _ => simp
      simp only [List.countP_cons, ih]
      cases hfailed : k.hasFailed with
      | true =>
          simp [hnot hfailed]
          omega
      | false =>
          simp
          omega

/-- The campaigns that failed, by their rows at the end, are as many as workers failed or broke. -/
theorem Chronicle.countP_hasFailed (hids : (due.map (·.id)).Nodup)
    (h : Chronicle room (opened due capacity s) past r) (hstored : Stored past)
    (hfinished : r.foreman = .finished) :
    due.countP r.hasFailed =
      r.workers.countP (·.hasFailed) + r.workers.countP (·.hasBroken) := by
  rw [← countP_setbacks, ← h.roster_of_finished hfinished, List.countP_map]
  refine List.countP_congr fun k hk => ?_
  obtain ⟨i, c, o, hi, rfl⟩ := h.ended_of_mem hfinished hk
  rw [Function.comp_apply, h.failed_iff hids hstored hfinished hi]

/-- What the counters of a run say, with the numbers that they stand for. -/
structure Accounts (due : List Campaign) (past : List (Turn × Deed)) (r : Run σ) : Prop where
  /-- Due campaigns whose row at the end has failed. -/
  campaignsFailed : r.counters.campaignsFailed = due.countP r.hasFailed
  /-- Each is counted once, whether its worker came back with a fault or broke. -/
  failedOnce : r.counters.campaignsFailed =
    r.workers.countP (·.hasFailed) + r.workers.countP (·.hasBroken)
  /-- Calls to the provider that came back. -/
  batches : r.counters.batchesSent + r.counters.batchErrors =
    (Call.posted (Deed.calls (deeds past))).countP fun p => p.2.Returns
  /-- Calls to the provider that came back with a fault. -/
  batchErrors : r.counters.batchErrors =
    (Call.posted (Deed.calls (deeds past))).countP (·.2.isFault)
  /-- Recipients of the calls that came back. -/
  recipientsAttempted : r.counters.recipientsAttempted =
    Worker.handed ((Call.posted (Deed.calls (deeds past))).filter fun p => p.2.Returns)
  /-- Calls for pages that succeeded. -/
  pagesFetched : r.counters.pagesFetched = (Call.arrived (Deed.calls (deeds past))).length
  /-- Calls for storing rows that came back with a fault. -/
  persistErrors : r.counters.persistErrors =
    (Call.rows (Deed.calls (deeds past))).countP (·.2.isFault)
  /-- Events that changed the row of their campaign, told from the row at the start. -/
  updatesApplied : r.counters.updatesApplied = (due.map fun c =>
    c.changes (r.desk.ledger.events.filter (·.campaign = c.id))).sum

/-- **The counters account for the run.**  Once a run over campaigns with different identifiers is
over, whose calls for storing rows did not crash, every counter is the number it stands for, whatever
else the world answered and in whatever order turns were taken. -/
theorem Chronicle.accounts (hids : (due.map (·.id)).Nodup)
    (h : Chronicle room (opened due capacity s) past r) (hstored : Stored past)
    (hfinished : r.foreman = .finished) : Accounts due past r := by
  have hcounters := h.counters_eq hstored hfinished
  rw [Call.sum_tick_by_counter] at hcounters
  have hfailed := h.countP_hasFailed hids hstored hfinished
  have hchanges : r.desk.ledger.changes = (due.map fun c =>
      c.changes (r.desk.ledger.events.filter (·.campaign = c.id))).sum := by
    rw [Ledger.changes_eq_sum hids fun id hid => h.changesOf_eq_zero hid, List.map_map]
    refine congrArg List.sum (List.map_congr_left fun c hc => ?_)
    rw [Function.comp_apply, h.changesOf_eq hids hc, Campaign.changes_timeless]
  have hzero : ∀ a b : Counters, a + b = Counters.add a b := fun _ _ => rfl
  rw [hzero, Counters.add] at hcounters
  constructor
  · simp only [hcounters, hfailed, Nat.zero_add]
  · simp only [hcounters, Nat.zero_add]
  · rw [← Reply.countP_returns]
    simp only [hcounters, Nat.add_zero]
  · simp only [hcounters, Nat.add_zero]
  · simp only [hcounters, Nat.add_zero]
  · simp only [hcounters, Nat.add_zero]
  · simp only [hcounters, Nat.add_zero]
  · simp only [hcounters, Nat.zero_add, hchanges]

/-- Summer is mailed out, storm's worker breaks and frost fails: two campaigns failed, by either
account, three calls to the provider came back, one of them refused, and three rows were. -/
theorem Chronicle.accounts_of_season :
    Season.wetRun.2.counters.campaignsFailed = 2 ∧
      Season.wetDue.countP Season.wetRun.2.hasFailed = 2 ∧
      Season.wetRun.2.workers.countP (·.hasFailed) = 1 ∧
      Season.wetRun.2.counters.batchesSent + Season.wetRun.2.counters.batchErrors = 3 ∧
      Season.wetRun.2.counters.batchErrors = 1 ∧ Season.wetRun.2.counters.persistErrors = 3 := by
  have h : Accounts Season.wetDue Season.wetRun.1 Season.wetRun.2 :=
    Season.wetChronicle.accounts (by decide) (by decide +kernel) (by decide +kernel)
  have hfailed : Season.wetDue.countP Season.wetRun.2.hasFailed = 2 := by decide +kernel
  refine ⟨h.campaignsFailed.trans hfailed, hfailed, by decide +kernel, ?_, ?_, ?_⟩
  · exact h.batches.trans (by decide +kernel)
  · exact h.batchErrors.trans (by decide +kernel)
  · exact h.persistErrors.trans (by decide +kernel)

end Run

end Mailshot
