import Mailshot.Proofs.Run.Desk
import Mailshot.Proofs.Worker.Tale

/-!
# The lifecycle of a campaign

A row takes any delta, so that a campaign keeps to its lifecycle rests on the order in which events
come to the desk: the size of the audience first, then progress that never goes back, then the
failure if there is one, told by the worker or, where the worker broke, by the foreman.

* `Campaign.Lifecycle`: what the rows of a campaign keep to;
* `Campaign.lifecycle_trail`: the rows that a tale leads through do;
* `Run.Chronicle.tale`: the events for a campaign tell a tale, in any order of turns;
* `Run.Chronicle.lifecycle`: so the rows that a campaign goes through keep to its lifecycle, and the
  rows that are handed over to be stored are these rows.
-/

namespace Mailshot

open Worker (Underway Tale)

namespace Campaign

/-- **The lifecycle**: what the rows of a campaign keep to, after its row at the start. -/
structure Lifecycle (c : Campaign) (rows : List Campaign) : Prop where
  begun : ∀ row ∈ rows, row.status ≠ .pending
  /-- Nothing comes after a failure. -/
  last : ∀ before row after, rows = before ++ row :: after → row.status = .failed → after = []
  reason : ∀ row ∈ rows, row.failureReason.isSome ↔ row.status = .failed
  size : ∀ row ∈ rows, ∀ other ∈ rows, row.segmentSize = other.segmentSize
  /-- Progress never goes back, from the start on. -/
  progress : ((c :: rows).map (·.progress)).Pairwise (· ≤ ·)
  bounded : ∀ row ∈ rows, row.progress ≤ 100

/-- When rows change says nothing of their lifecycle. -/
theorem Lifecycle.of_timeless {c : Campaign} {rows : List Campaign}
    (h : Lifecycle c.timeless (rows.map (·.timeless))) : Lifecycle c rows where
  begun row hrow := h.begun row.timeless (List.mem_map_of_mem hrow)
  last before row after hsplit hfailed := by
    have hnil := h.last (before.map (·.timeless)) row.timeless (after.map (·.timeless))
      (by rw [hsplit, List.map_append, List.map_cons]) hfailed
    exact List.map_eq_nil_iff.mp hnil
  reason row hrow := h.reason row.timeless (List.mem_map_of_mem hrow)
  size row hrow other hother :=
    h.size row.timeless (List.mem_map_of_mem hrow) other.timeless (List.mem_map_of_mem hother)
  progress := by
    have hprogress := h.progress
    rw [← List.map_cons (f := timeless), List.map_map] at hprogress
    exact hprogress
  bounded row hrow := h.bounded row.timeless (List.mem_map_of_mem hrow)

/-- Progress leads through rows that differ in progress only. -/
theorem trail_progress (id : Uuid) (c : Campaign) (percents : List Nat) :
    c.trail (percents.map (Event.progress id)) =
      percents.map fun percent => { c with progress := cap percent } := by
  induction percents generalizing c with
  | nil => rfl
  | cons percent rest ih =>
      rw [List.map_cons, trail, ih]
      simp [merge, Event.progress]

/-- Rows with progress that never goes back never exceed the last one. -/
theorem progress_le_last {c : Campaign} {rows : List Campaign}
    (h : ((c :: rows).map (·.progress)).Pairwise (· ≤ ·)) :
    ∀ row ∈ c :: rows, row.progress ≤ (rows.getLast?.getD c).progress := by
  induction rows using List.reverseRecOn with
  | nil => simp
  | append_singleton rows last _ =>
      rw [← List.cons_append, List.map_append, List.pairwise_append] at h
      intro row hrow
      rw [← List.cons_append] at hrow
      rcases List.mem_append.mp hrow with hrow | hrow
      · simpa using h.2.2 row.progress (List.mem_map_of_mem hrow) last.progress (by simp)
      · obtain rfl := List.mem_singleton.mp hrow
        simp

/-- Running rows of one size whose progress never goes back keep to the lifecycle. -/
theorem Lifecycle.of_running {c : Campaign} {rows : List Campaign} {n : Nat}
    (hrunning : ∀ row ∈ rows, row.status = .running) (hreason : ∀ row ∈ rows, row.failureReason = none)
    (hsize : ∀ row ∈ rows, row.segmentSize = n) (hbounded : ∀ row ∈ rows, row.progress ≤ 100)
    (hprogress : ((c :: rows).map (·.progress)).Pairwise (· ≤ ·)) : Lifecycle c rows where
  begun row hrow := by simp [hrunning row hrow]
  last before row after hsplit hfailed := by
    rw [hrunning row (by simp [hsplit])] at hfailed
    cases hfailed
  reason row hrow := by simp [hrunning row hrow, hreason row hrow]
  size row hrow other hother := by rw [hsize row hrow, hsize other hother]
  progress := hprogress
  bounded := hbounded

/-- Reports of a campaign that has not failed lead through running rows with the size of the audience
that was told. -/
theorem trail_underway {id : Uuid} {events : List Event} (h : Underway id events) {c : Campaign}
    (hprogress : c.progress = 0) (hreason : c.failureReason = none) :
    Lifecycle c (c.trail events) ∧ (∀ row ∈ c.trail events, row.status = .running) ∧
      ∀ n, Event.running id n ∈ events → ∀ row ∈ c.trail events, row.segmentSize = n := by
  cases h with
  | nothing =>
      have hnone : Lifecycle c [] :=
        .of_running (n := 0) (by simp) (by simp) (by simp) (by simp) (by simp)
      exact ⟨hnone, by simp [trail], by simp⟩
  | @running n percents hsorted =>
      have htrail : c.trail (.running id n :: percents.map (Event.progress id)) =
          (0 :: percents).map fun percent =>
            { c with status := .running, segmentSize := n, progress := cap percent } := by
        rw [trail, trail_progress, List.map_cons]
        simp [merge, Event.running, cap, hprogress]
      have hrow : ∀ row ∈ c.trail (.running id n :: percents.map (Event.progress id)),
          ∃ percent, row =
            { c with status := .running, segmentSize := n, progress := cap percent } := by
        rw [htrail]
        intro row hmem
        obtain ⟨percent, -, rfl⟩ := List.mem_map.mp hmem
        exact ⟨percent, rfl⟩
      have hrunning : ∀ row ∈ c.trail (.running id n :: percents.map (Event.progress id)),
          row.status = .running := by
        intro row hmem
        obtain ⟨_, rfl⟩ := hrow row hmem
        rfl
      have hsize : ∀ row ∈ c.trail (.running id n :: percents.map (Event.progress id)),
          row.segmentSize = n := by
        intro row hmem
        obtain ⟨_, rfl⟩ := hrow row hmem
        rfl
      have hcap : (percents.map cap).Pairwise (· ≤ ·) := by
        refine hsorted.map cap fun a b hab => ?_
        simp only [cap]
        omega
      refine ⟨.of_running hrunning ?_ hsize ?_ ?_, hrunning, ?_⟩
      · intro row hmem
        obtain ⟨_, rfl⟩ := hrow row hmem
        exact hreason
      · intro row hmem
        obtain ⟨percent, rfl⟩ := hrow row hmem
        exact Nat.min_le_right _ _
      · have hzero : cap 0 = 0 := rfl
        rw [htrail]
        simpa [hprogress, hzero, Function.comp_def] using hcap
      · intro m hm row hmem
        obtain rfl : m = n := by simpa [Event.running, Event.progress] using hm
        exact hsize row hmem

/-- The last of some rows, if there is one, is among them. -/
theorem last_mem {c : Campaign} {rows : List Campaign} (hrows : rows ≠ []) :
    rows.getLast?.getD c ∈ rows := by
  rw [List.getLast?_eq_some_getLast hrows]
  exact List.getLast_mem hrows

/-- A failure may come last, and only last. -/
theorem Lifecycle.fail {c : Campaign} {rows : List Campaign} (h : Lifecycle c rows)
    (hrunning : ∀ row ∈ rows, row.status = .running) (hbounded : c.progress ≤ 100) (id : Uuid)
    (reason : String) :
    Lifecycle c (rows ++ [(rows.getLast?.getD c).merge (Event.failed id reason).delta]) where
  begun row hrow := by
    rcases List.mem_append.mp hrow with hrow | hrow
    · exact h.begun row hrow
    · obtain rfl := List.mem_singleton.mp hrow
      simp [merge, Event.failed]
  last before row after hsplit hfailed := by
    cases after using List.reverseRecOn with
    | nil => rfl
    | append_singleton after last =>
        rw [← List.cons_append, ← List.append_assoc] at hsplit
        obtain ⟨rfl, -⟩ := List.append_inj' hsplit rfl
        rw [hrunning row (by simp)] at hfailed
        cases hfailed
  reason row hrow := by
    rcases List.mem_append.mp hrow with hrow | hrow
    · exact h.reason row hrow
    · obtain rfl := List.mem_singleton.mp hrow
      simp [merge, Event.failed]
  size := by
    have hsize : ∀ row ∈ rows ++ [(rows.getLast?.getD c).merge (Event.failed id reason).delta],
        row.segmentSize = (rows.getLast?.getD c).segmentSize := by
      intro row hrow
      rcases List.mem_append.mp hrow with hrow | hrow
      · exact h.size row hrow _ (last_mem (List.ne_nil_of_mem hrow))
      · obtain rfl := List.mem_singleton.mp hrow
        rfl
    intro row hrow other hother
    rw [hsize row hrow, hsize other hother]
  progress := by
    rw [← List.cons_append, List.map_append, List.pairwise_append]
    refine ⟨h.progress, List.pairwise_singleton _ _, ?_⟩
    intro a ha b hb
    obtain ⟨row, hrow, rfl⟩ := List.mem_map.mp ha
    obtain rfl := List.mem_singleton.mp hb
    exact progress_le_last h.progress row hrow
  bounded row hrow := by
    rcases List.mem_append.mp hrow with hrow | hrow
    · exact h.bounded row hrow
    · obtain rfl := List.mem_singleton.mp hrow
      show (rows.getLast?.getD c).progress ≤ 100
      by_cases hrows : rows = []
      · simpa [hrows] using hbounded
      · exact h.bounded _ (last_mem hrows)

/-- **The rows that a tale leads through keep to the lifecycle.**  All have the size of the audience
that was told. -/
theorem lifecycle_trail {id : Uuid} {events : List Event} (h : Tale id events) {c : Campaign}
    (hprogress : c.progress = 0) (hreason : c.failureReason = none) :
    Lifecycle c (c.trail events) ∧
      ∀ n, Event.running id n ∈ events → ∀ row ∈ c.trail events, row.segmentSize = n := by
  obtain ⟨before, hunderway, rfl | ⟨reason, rfl⟩⟩ := h
  · obtain ⟨hlifecycle, -, hsize⟩ := trail_underway hunderway hprogress hreason
    exact ⟨hlifecycle, hsize⟩
  · obtain ⟨hlifecycle, hrunning, hsize⟩ := trail_underway hunderway hprogress hreason
    have hfail := hlifecycle.fail hrunning (by omega) id reason
    have htrail : c.trail (before ++ [.failed id reason]) = c.trail before ++
        [((c.trail before).getLast?.getD c).merge (Event.failed id reason).delta] := by
      rw [trail_append, getLast?_trail]
      rfl
    rw [htrail]
    refine ⟨hfail, ?_⟩
    intro n hn row hrow
    have hbefore : Event.running id n ∈ before := by
      simpa [Event.running, Event.failed] using hn
    have hfirst : c.trail before ≠ [] := by
      cases before with
      | nil => cases hbefore
      | cons => simp [trail]
    exact (hfail.size row hrow _ (List.mem_append_left _ (last_mem (c := c) hfirst))).trans
      (hsize n hbefore _ (last_mem hfirst))

end Campaign

namespace Run

variable {σ : Type} {room : Mailroom σ} {due : List Campaign} {capacity : Nat} {s : σ} {r : Run σ}
  {past : List (Turn × Deed)} {c : Campaign}

/-- **The events for a campaign tell a tale**, in any order of turns. -/
theorem Chronicle.tale (hids : (due.map (·.id)).Nodup)
    (h : Chronicle room (opened due capacity s) past r) (hc : c ∈ due) :
    Tale c.id ((Deed.events (deeds past)).filter (·.campaign = c.id)) := by
  obtain ⟨i, hi⟩ := List.mem_iff_getElem?.mp hc
  rw [h.events_for hids hi, aftermath]
  cases hk : r.workers[i]? with
  | none =>
      rw [(h.courses i).2 (List.getElem?_eq_none_iff.mp hk)]
      simpa using Underway.nothing.tale
  | some k =>
      obtain rfl : k.campaign = c := by simpa [h.due_at hk] using hi
      obtain ⟨htale, hunderway⟩ := (h.course hk).stage.tale
      -- only a worker that broke is reported by the foreman, and it has reported no failure itself
      by_cases hjoined : i < r.joined
      · cases hparting : k.parting? (room.task i) with
        | none => simpa [hjoined, hparting] using htale
        | some e =>
            obtain ⟨text, hphase⟩ : ∃ text, k.phase = .ended (.broken text) := by
              unfold Worker.parting? at hparting
              split at hparting
              · next text hphase => exact ⟨text, hphase⟩
              · cases hparting
            obtain rfl : brokenEvent k.campaign.id (room.task i) text = e := by
              simpa [Worker.parting?, hphase] using hparting
            have hopen := hunderway (by simp [hphase])
            simpa [hjoined, hparting, brokenEvent] using
              hopen.failed (Fault.brokenTask text (room.task i))
      · simpa [hjoined] using htale

/-- At the end of a run something was told of every campaign. -/
theorem Chronicle.events_ne_nil (hids : (due.map (·.id)).Nodup)
    (h : Chronicle room (opened due capacity s) past r) (hstored : Stored past)
    (hfinished : r.foreman = .finished) (hc : c ∈ due) :
    r.desk.ledger.events.filter (·.campaign = c.id) ≠ [] := by
  obtain ⟨i, hi⟩ := List.mem_iff_getElem?.mp hc
  obtain ⟨o, hk⟩ := h.ended_of_finished hfinished hi
  have hstage : Worker.Stage room c (deedsOf i past) (.ended o) := (h.course hk).stage
  rw [h.events_entered hids hstored hfinished hk]
  cases o with
  | broken text => simp [Worker.parting?]
  | mailed | failed => simp [hstage.told (by simp)]

/-- **The lifecycle of a campaign.**  In every run whose calls for storing rows do not crash, whatever
else the world answers and in whatever order turns are taken, the rows that a campaign goes through
keep to the lifecycle, and all have the size of its audience once that was told.  The rows handed over
to be stored are these rows, in this order, at the end of the run all of them. -/
theorem Chronicle.lifecycle (hids : (due.map (·.id)).Nodup)
    (h : Chronicle room (opened due capacity s) past r) (hstored : Stored past) (hc : c ∈ due)
    (hprogress : c.progress = 0) (hreason : c.failureReason = none) :
    Campaign.Lifecycle c (r.desk.ledger.states c.id) ∧
      (∀ n, Event.running c.id n ∈ r.desk.ledger.events →
        ∀ row ∈ r.desk.ledger.states c.id, row.segmentSize = n) ∧
      ((Deed.updates (deeds past)).map (·.1)).filter (·.id = c.id) <+:
        r.desk.ledger.states c.id ∧
      (r.foreman = .finished → r.desk.ledger.states c.id ≠ [] ∧
        ((Deed.updates (deeds past)).map (·.1)).filter (·.id = c.id) =
          r.desk.ledger.states c.id) := by
  have hserved := h.served hstored
  have hfollows := h.follows hids hc
  have htale : Tale c.id (r.desk.ledger.events.filter (·.campaign = c.id)) := by
    refine (h.tale hids hc).of_beginning ?_
    rw [hserved.events, List.filter_append]
    exact List.prefix_append _ _
  obtain ⟨hlifecycle, hsize⟩ := Campaign.lifecycle_trail htale (c := c.timeless) hprogress hreason
  rw [← hfollows.trail] at hlifecycle hsize
  refine ⟨hlifecycle.of_timeless, ?_, ?_, ?_⟩
  · intro n hn row hrow
    have htold : Event.running c.id n ∈ r.desk.ledger.events.filter (·.campaign = c.id) :=
      List.mem_filter.mpr ⟨hn, by simp [Event.running]⟩
    exact hsize n htold row.timeless (List.mem_map_of_mem hrow)
  · rw [← hfollows.entered, ← hserved.handed, List.filter_append]
    exact List.prefix_append _ _
  · intro hfinished
    refine ⟨?_, by rw [(h.finished_served hstored hfinished).2, hfollows.entered]⟩
    intro hnone
    have htrail := hfollows.trail
    rw [hnone, List.map_nil] at htrail
    cases hevents : r.desk.ledger.events.filter (·.campaign = c.id) with
    | nil => exact h.events_ne_nil hids hstored hfinished hc hevents
    | cons e rest => simp [hevents, Campaign.trail] at htrail

/-- Autumn is running until its worker breaks, and failed from then on. -/
theorem Chronicle.lifecycle_of_autumn :
    Campaign.Lifecycle Sample.autumn (Sample.run.2.desk.ledger.states Sample.autumn.id) ∧
      (Sample.run.2.desk.ledger.states Sample.autumn.id).map (·.status) =
        [.running, .running, .failed] := by
  have hautumn : Sample.autumn ∈ Sample.due := by decide
  have h := Sample.chronicle.lifecycle (by decide) (by decide +kernel) hautumn rfl rfl
  exact ⟨h.1, by decide +kernel⟩

end Run

end Mailshot
