import Mailshot.Proofs.Run.Courier
import Mailshot.Proofs.Run.Twin

/-!
# Refusals leave no trace

What a courier refuses is counted and passed over.  With one courier or another, however they differ
in what they refuse, the same mail is handed over, the same is told at the desk, the same rows are
stored and the result is the same; what differs is the flag of each call and how the batches divide
into those taken and those refused.

* `Run.EndsSurely.of_taken`: a run by courier ends where the run in the willing world does;
* `Mailroom.refusals_unseen`: two couriers make no difference.
-/

namespace Mailshot

variable {σ ρ ρ' : Type}

theorem Deed.calls_taken (deeds : List Deed) :
    calls (deeds.map taken) = (calls deeds).map Call.taken := by
  induction deeds with
  | nil => rfl
  | cons d rest ih =>
      cases d with
      | call made => exact congrArg (Call.taken made :: ·) ih
      | start | report => exact ih

theorem Deed.events_taken (deeds : List Deed) : events (deeds.map taken) = events deeds := by
  induction deeds with
  | nil => rfl
  | cons d rest ih =>
      cases d with
      | report e => exact congrArg (e :: ·) ih
      | call | start => exact ih

theorem Deed.updates_taken (deeds : List Deed) : updates (deeds.map taken) = updates deeds := by
  rw [updates, calls_taken, List.filterMap_map]
  refine List.filterMap_congr fun made _ => ?_
  cases made <;> rfl

theorem Call.callsFor_taken (id : Uuid) (calls : List Call) :
    callsFor id (calls.map taken) = (callsFor id calls).map taken := by
  rw [callsFor, List.filter_map]
  congr 1
  refine List.filter_congr fun made _ => ?_
  cases made <;> rfl

theorem Call.rowsFor_taken (id : Uuid) (calls : List Call) :
    rowsFor id (calls.map taken) = rowsFor id calls := by
  rw [rowsFor, List.filterMap_map]
  refine List.filterMap_congr fun made _ => ?_
  cases made <;> rfl

namespace Run

variable {room : Mailroom σ} {k : Courier ρ} {due : List Campaign} {capacity capacity' : Nat} {s : σ}
  {q : ρ} {past past' : List (Turn × Deed)}

theorem deeds_takenPast (past : List (Turn × Deed)) :
    deeds (takenPast past) = (deeds past).map Deed.taken := by
  simp [deeds, takenPast]

theorem stored_takenPast : Stored (takenPast past) ↔ Stored past := by
  rw [Stored, deeds_takenPast, Deed.updates_taken, Stored]

/-- A run by courier ends surely where the run in the willing world does. -/
theorem EndsSurely.of_taken (h : EndsSurely room.willing (opened due capacity s)) :
    EndsSurely (room.via k) (opened due capacity (s, q)) where
  enabled past t hpast hfinished := by
    obtain ⟨turn, hturn⟩ := hpast.enabled hfinished default
    obtain ⟨u, hu⟩ := Option.isSome_iff_exists.mp hturn
    exact ⟨u, turn, hu⟩
  bounded runs hstart hsteps := by
    refine h.bounded (fun n => (runs n).taken) (congrArg Run.taken hstart) fun n => ?_
    obtain ⟨turn, hturn⟩ := hsteps n
    refine ⟨turn, ?_⟩
    rw [step_taken, hturn, Option.map_some]

end Run

open Run in
/-- **Refusals leave no trace.**  Two couriers may differ arbitrarily in the mail that they refuse.
The dispatch of the program gives the same report with either, told as if every batch had been taken.
Taking the same turns, runs over the same campaigns do the same deeds, flags of calls aside, and are
alike at the desk, in the foreman's eyes and in what they leave of the world.  Taking any turns, in a
world that keeps campaigns apart and where storing a row does not crash, the runs come to their ends
with either if they do with one, with the same result and the same counts, and for each campaign with
the same calls, flags aside, the same events, and the same rows, handed over and stored. -/
theorem Mailroom.refusals_unseen (room : Mailroom σ) (k : Courier ρ) (k' : Courier ρ') (s : σ)
    (q : ρ) (q' : ρ') :
    (∀ cutoff now,
      ((room.via k').dispatch cutoff now (s, q')).1.taken =
          ((room.via k).dispatch cutoff now (s, q)).1.taken ∧
        ((room.via k').dispatch cutoff now (s, q')).2.1 =
          ((room.via k).dispatch cutoff now (s, q)).2.1) ∧
    (∀ due capacity turns past r past' r',
      follow (room.via k) turns (opened due capacity (s, q)) = (past, r) →
      follow (room.via k') turns (opened due capacity (s, q')) = (past', r') →
        takenPast past' = takenPast past ∧ r'.desk = r.desk ∧ r'.foreman = r.foreman ∧
          r'.faults = r.faults ∧ r'.world.1 = r.world.1 ∧ r'.counters.taken = r.counters.taken) ∧
    ∀ due capacity past r, (due.map (·.id)).Nodup →
      room.willing.world.Separate s →
      Chronicle (room.via k) (opened due capacity (s, q)) past r → r.foreman = .finished →
      ∀ capacity', EndsSurely (room.via k') (opened due capacity' (s, q')) ∧
        ∀ past' r', Chronicle (room.via k') (opened due capacity' (s, q')) past' r' →
          r'.foreman = .finished → Stored past → Stored past' →
          r'.firstFault = r.firstFault ∧
          (∀ c ∈ due,
            (Call.callsFor c.id (Deed.calls (deeds past'))).map Call.taken =
              (Call.callsFor c.id (Deed.calls (deeds past))).map Call.taken ∧
            (Deed.events (deeds past')).filter (·.campaign = c.id) =
              (Deed.events (deeds past)).filter (·.campaign = c.id) ∧
            (Call.rowsFor c.id (Deed.calls (deeds past'))).map (·.1) =
              (Call.rowsFor c.id (Deed.calls (deeds past))).map (·.1) ∧
            (r'.desk.ledger.row? c.id).map (·.timeless) =
              (r.desk.ledger.row? c.id).map (·.timeless)) ∧
          (room.willing.world.StoresApart s →
            (∀ c ∈ due, Call.rowsFor c.id (Deed.calls (deeds past')) =
              Call.rowsFor c.id (Deed.calls (deeds past))) ∧
            r'.counters.taken = r.counters.taken) := by
  refine ⟨?_, ?_, ?_⟩
  · intro cutoff now
    have hone := dispatch_taken room k cutoff now (s, q)
    have htwo := dispatch_taken room k' cutoff now (s, q')
    exact Prod.mk.inj (htwo.symm.trans hone)
  · intro due capacity turns past r past' r' hone htwo
    have hone' := follow_taken room k turns (opened due capacity (s, q))
    have htwo' := follow_taken room k' turns (opened due capacity (s, q'))
    rw [hone] at hone'
    rw [htwo] at htwo'
    obtain ⟨hpast, hrun⟩ := Prod.mk.inj (htwo'.symm.trans hone')
    exact ⟨hpast, congrArg Run.desk hrun, congrArg Run.foreman hrun, congrArg Run.faults hrun,
      congrArg Run.world hrun, congrArg Run.counters hrun⟩
  · intro due capacity past r hids hapart h hfinished capacity'
    have hone : Chronicle room.willing (opened due capacity s) (takenPast past) r.taken := h.taken
    have hsame : room.willing.Alike room.willing := ⟨rfl, rfl, rfl⟩
    refine ⟨.of_taken (hone.endsSurely hsame hfinished fun past' r' h' =>
      hone.comparable_of_separate hsame rfl hids hapart h'), ?_⟩
    intro past' r' h' hfinished' hstored hstored'
    have htwo : Chronicle room.willing (opened due capacity' s) (takenPast past') r'.taken := h'.taken
    have hcomparable := hone.comparable_of_separate hsame rfl hids hapart htwo
    rw [← stored_takenPast] at hstored hstored'
    have hupshot : ∀ c ∈ due, r'.taken.upshot (takenPast past') c = r.taken.upshot (takenPast past) c :=
      fun c hc => hone.upshot_same hsame hcomparable htwo hfinished hfinished' rfl hids hstored
        hstored' hc
    have hfault := hone.firstFault_same hsame hcomparable htwo hfinished hfinished' rfl
    refine ⟨hfault, ?_, ?_⟩
    · intro c hc
      have hcalls := congrArg Upshot.calls (hupshot c hc)
      have hrows := congrArg Upshot.rows (hupshot c hc)
      have hrow := congrArg Upshot.row (hupshot c hc)
      have hevents := hone.events_same hsame hcomparable htwo hfinished hfinished' rfl hids hstored
        hstored' hc
      rw [← (hone.finished_served hstored hfinished).1, ← (htwo.finished_served hstored' hfinished').1]
        at hevents
      simp only [upshot, deeds_takenPast, Deed.calls_taken, Call.callsFor_taken,
        Call.rowsFor_taken, Deed.events_taken] at hcalls hrows hrow hevents
      exact ⟨hcalls, hevents, hrows, hrow⟩
    · intro hstores
      have hrows : ∀ c ∈ due, Call.rowsFor c.id (Deed.calls (deeds (takenPast past'))) =
          Call.rowsFor c.id (Deed.calls (deeds (takenPast past))) := fun c hc =>
        World.rows_unique hstores htwo.history hone.history (congrArg Upshot.rows (hupshot c hc))
      have hcounters := hone.counters_same hsame hcomparable htwo hfinished hfinished' rfl hids hstored
        hstored' hrows
      refine ⟨?_, hcounters⟩
      simpa only [deeds_takenPast, Deed.calls_taken, Call.rowsFor_taken] using hrows

namespace Sample

/-- A courier that refuses every second mail. -/
def fickle : Courier Nat where
  refusal _ _ n := (if n % 2 = 1 then some (.send "refused") else none, n + 1)

/-- A courier that takes all mail. -/
def steady : Courier Unit where
  refusal _ _ q := (none, q)

/-- The run by the courier that refuses every second mail. -/
def fickleRun : List (Run.Turn × Deed) × Run (Unit × Nat) :=
  Run.follow (room.via fickle) turns (Run.opened due 1 ((), 0))

/-- The run by the courier that takes all mail, at a desk with more room and by another schedule. -/
def steadyRun : List (Run.Turn × Deed) × Run (Unit × Unit) :=
  Run.follow (room.via steady) (List.replicate 40 round.reverse).flatten
    (Run.opened due 4 ((), ()))

end Sample

/-- Half of the batches of spring and autumn are refused, or none, and nobody can tell from the rest. -/
theorem Mailroom.refusals_unseen_of_sample :
    Sample.steadyRun.2.firstFault = Sample.fickleRun.2.firstFault ∧
      Sample.steadyRun.2.counters.taken = Sample.fickleRun.2.counters.taken ∧
      Sample.steadyRun.2.counters.batchErrors = 0 ∧ Sample.fickleRun.2.counters.batchErrors = 2 := by
  have hapart : Sample.room.willing.world.Separate () :=
    ⟨fun _ _ _ _ _ => rfl, fun _ _ _ _ _ => rfl, fun _ _ _ _ _ _ => rfl, fun _ _ _ _ _ => rfl⟩
  have hstores : Sample.room.willing.world.StoresApart () := fun _ _ _ _ => rfl
  have hfickle : Run.Chronicle (Sample.room.via Sample.fickle) (Run.opened Sample.due 1 ((), 0))
      Sample.fickleRun.1 Sample.fickleRun.2 := Run.chronicle_follow _ _ _
  have hsteady : Run.Chronicle (Sample.room.via Sample.steady) (Run.opened Sample.due 4 ((), ()))
      Sample.steadyRun.1 Sample.steadyRun.2 := Run.chronicle_follow _ _ _
  obtain ⟨-, -, hany⟩ := refusals_unseen Sample.room Sample.fickle Sample.steady () 0 ()
  obtain ⟨-, hsame⟩ := hany _ _ _ _ (by decide) hapart hfickle (by decide +kernel) 4
  obtain ⟨hfault, -, hcounts⟩ := hsame _ _ hsteady (by decide +kernel) (by decide +kernel)
    (by decide +kernel)
  exact ⟨hfault, (hcounts hstores).2, by decide +kernel, by decide +kernel⟩

end Mailshot
