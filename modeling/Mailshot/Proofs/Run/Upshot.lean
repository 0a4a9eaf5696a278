import Mailshot.Proofs.Run.Desk
import Mailshot.Proofs.Separate

/-!
# What a run comes to for a campaign

What can be seen of a campaign once a run is over is settled by the deeds of its worker and by how
the worker ended: the calls are those of the worker, and the rows are where its events led.  In a
world that keeps campaigns apart this is the same in every run that the campaign is part of.

* `Run.upshot`: the calls for a campaign, the rows handed over, and the row at the end;
* `Run.Chronicle.upshot_eq`: the worker of the campaign settles them;
* `Run.Chronicle.owner_mem`: a run makes calls for its own campaigns only;
* `Run.Settled`: a run dealt with a campaign as it would from some state on;
* `Run.Settled.ended_unique`: so does every other one.
-/

namespace Mailshot

/-- What can be seen of a campaign once a run is over. -/
structure Upshot where
  /-- The calls of its worker, for the tenant, pages, templates and mail, each with its reply. -/
  calls : List Call
  /-- The rows handed over to be stored, apart from their times of change. -/
  rows : List Campaign
  /-- The row at the end, apart from its time of change. -/
  row : Option Campaign
  deriving DecidableEq, Repr

/-- What the deeds of a worker that has ended come to, its task having this name. -/
def Worker.upshot (c : Campaign) (task : String) (deeds : List Deed) (o : Outcome) : Upshot :=
  let events := Deed.events deeds ++ (parting? task ⟨c, .ended o⟩).toList
  { calls := Deed.calls deeds
    rows := c.timeless.trail events
    row := some (c.timeless.after events) }

/-- The rows of a campaign among all that are handed over. -/
theorem Call.map_rowsFor (id : Uuid) (deeds : List Deed) :
    (rowsFor id (Deed.calls deeds)).map (·.1) =
      (((Deed.updates deeds).map (·.1)).filter (·.id = id)).map (·.timeless) := by
  unfold Deed.updates
  induction Deed.calls deeds with
  | nil => rfl
  | cons made rest ih =>
      cases made with
      | update row reply =>
          by_cases hid : row.id = id <;> simpa [rowsFor, hid] using ih
      | _ => simpa [rowsFor] using ih

namespace Run

variable {σ : Type}

/-- What a run comes to for a campaign. -/
def upshot (r : Run σ) (past : List (Turn × Deed)) (c : Campaign) : Upshot where
  calls := Call.callsFor c.id (Deed.calls (deeds past))
  rows := (Call.rowsFor c.id (Deed.calls (deeds past))).map (·.1)
  row := (r.desk.ledger.row? c.id).map (·.timeless)

variable {room : Mailroom σ} {due : List Campaign} {capacity : Nat} {s t : σ} {r : Run σ}
  {past : List (Turn × Deed)} {i : Nat} {c : Campaign} {o : Outcome}

/-- **The worker of a campaign settles what the run comes to for it.** -/
theorem Chronicle.upshot_eq (hids : (due.map (·.id)).Nodup)
    (h : Chronicle room (opened due capacity s) past r) (hstored : Stored past)
    (hfinished : r.foreman = .finished) (hk : r.workers[i]? = some ⟨c, .ended o⟩) :
    r.upshot past c = Worker.upshot c (room.task i) (deedsOf i past) o := by
  have hc := h.due_at hk
  have hfollows := h.follows hids (List.mem_of_getElem? hc)
  have hevents := h.events_entered hids hstored hfinished hk
  have hcalls : Call.callsFor c.id (Deed.calls (deeds past)) = Deed.calls (deedsOf i past) :=
    h.callsFor_eq hids hc
  have hrows : (Call.rowsFor c.id (Deed.calls (deeds past))).map (·.1) =
      c.timeless.trail (Deed.events (deedsOf i past) ++
        (Worker.parting? (room.task i) ⟨c, .ended o⟩).toList) := by
    rw [Call.map_rowsFor, (h.finished_served hstored hfinished).2, hfollows.entered, hfollows.trail,
      hevents]
  rw [upshot, hcalls, hrows, hfollows.timeless_row, hevents]
  rfl

/-- In a world where storing a row never crashes, no call of a run for storing one does. -/
theorem Chronicle.stored {r t : Run σ} (h : Chronicle room r past t)
    (hreturns : ∀ row s, (room.world.update row s).1.Returns) : Stored past := by
  induction h using Chronicle.transition_induction with
  | refl => simp [Stored, deeds, Deed.updates]
  | @tail _ t _ _ _ _ _ hstep ih =>
      refine stored_append.mpr ⟨ih, ?_⟩
      cases hstep with
      | act _ hmove => simp [Stored, hmove.updates_eq_nil]
      | store _ _ hreply => simpa [Stored, Deed.updates] using hreply
      | @storeCrash _ row _ _ _ hreply =>
          have hcrash := hreturns row t.world
          rw [hreply] at hcrash
          exact (hcrash _ rfl).elim
      | _ => simp [Stored, Deed.updates]

/-- The ledger of a run has rows of its campaigns only. -/
theorem Chronicle.within (h : Chronicle room (opened due capacity s) past r) :
    r.desk.ledger.Within (due.map (·.id)) := by
  induction h using Chronicle.transition_induction with
  | refl => exact Ledger.within_ofRows due
  | tail _ _ hstep ih =>
      cases hstep with
      | enter => exact ih.enter _ _
      | reportBroken _ hoffer => exact (Desk.offer_ledger hoffer).symm ▸ ih
      | report _ _ hoffer => exact (Desk.offer_ledger hoffer).symm ▸ ih
      | _ => exact ih

/-- **A run makes calls for its own campaigns only.** -/
theorem Chronicle.owner_mem (h : Chronicle room (opened due capacity s) past r)
    (hstored : Stored past) : ∀ made ∈ Deed.calls (deeds past), made.owner ∈ due.map (·.id) := by
  induction h using Chronicle.transition_induction with
  | refl => simp [deeds]
  | @tail past t turn d u hpast _ hstep ih =>
      obtain ⟨hbefore, -⟩ := stored_append.mp hstored
      have hmoved : ∀ {j : Nat} {k : Worker} {e : Deed} {phase : Phase},
          t.workers[j]? = some k → Worker.Move room k.campaign k.phase e phase →
          ∀ made ∈ Deed.calls [e], made.owner ∈ due.map (·.id) := by
        intro j k e phase hk hmove made hmade
        rw [(hmove.call_owner made hmade).1]
        exact List.mem_map_of_mem (List.mem_of_getElem? (hpast.due_at hk))
      have hrow : ∀ {row : Campaign}, t.desk.clerk = .storing row → row.id ∈ due.map (·.id) := by
        intro row hclerk
        refine hpast.within.entered row ?_
        rw [← (hpast.served hbefore).handed, hclerk]
        simp
      have hlast : ∀ made ∈ Deed.calls d.toList, made.owner ∈ due.map (·.id) := by
        cases hstep with
        | act hk hmove => exact hmoved hk hmove
        | report hk hmove => exact hmoved hk hmove
        | store hclerk | storeCrash hclerk =>
            intro made hmade
            obtain rfl := List.mem_singleton.mp hmade
            exact hrow hclerk
        | _ => simp
      intro made hmade
      simp only [deeds_append, deeds_told, Deed.calls_append, List.mem_append] at hmade
      rcases hmade with hmade | hmade
      · exact ih hbefore made hmade
      · exact hlast made hmade

/-- At the end of a run its result is the fault of the first campaign whose worker failed or broke.
-/
theorem Chronicle.firstFault_eq (h : Chronicle room (opened due capacity s) past r)
    (hfinished : r.foreman = .finished) :
    r.firstFault = (List.range r.workers.length).findSome? (r.faultAt room) := by
  have hall : r.joined = r.workers.length := by simp [joined, hfinished]
  rw [firstFault, h.seen.faults, hall, List.getLast?_reverse, List.head?_filterMap]

/-- The fault at a place is the result where there is none before it. -/
theorem Chronicle.firstFault_at (h : Chronicle room (opened due capacity s) past r)
    (hfinished : r.foreman = .finished) {f : Fault} (hfault : r.faultAt room i = some f)
    (hbefore : ∀ j < i, r.faultAt room j = none) : r.firstFault = some f := by
  have hi : i < r.workers.length := by
    by_contra hnot
    rw [faultAt, List.getElem?_eq_none (by omega)] at hfault
    cases hfault
  obtain ⟨m, hm⟩ : ∃ m, r.workers.length = i + (m + 1) :=
    ⟨r.workers.length - (i + 1), by omega⟩
  have hnone : (List.range i).findSome? (r.faultAt room) = none :=
    List.findSome?_eq_none_iff.mpr fun j hj => hbefore j (List.mem_range.mp hj)
  rw [h.firstFault_eq hfinished, hm, List.range_add, List.findSome?_append, hnone,
    List.range_succ_eq_map, List.map_cons, List.findSome?_cons, Nat.add_zero, hfault]
  rfl

/-- A run that is over has dealt with a campaign as in a world that was in state `s` before anything
was done for the campaign: its worker, in the task of this name, did these deeds and ended like
this. -/
structure Settled (room : Mailroom σ) (s : σ) (c : Campaign) (past : List (Turn × Deed))
    (r : Run σ) (task : String) (done : List Deed) (o : Outcome) : Prop where
  course : Worker.Course room c done (.ended o)
  answered : room.world.Answered s c.id (Deed.calls done)
  upshot : r.upshot past c = Worker.upshot c task done o
  handed : ∃ calls t, room.world.History s calls t ∧
    Call.rowsFor c.id calls = Call.rowsFor c.id (Deed.calls (deeds past))

/-- The calls of a worker were answered, also where calls for others came before the run. -/
theorem Chronicle.answered (hids : (due.map (·.id)).Nodup)
    (h : Chronicle room (opened due capacity t) past r) {before : List Call}
    (hbefore : room.world.History s before t) (hsilent : ∀ made ∈ before, made.owner ≠ c.id)
    (hc : due[i]? = some c) : room.world.Answered s c.id (Deed.calls (deedsOf i past)) := by
  have hall : room.world.History s (before ++ Deed.calls (deeds past)) r.world :=
    World.history_append.mpr ⟨t, hbefore, h.history⟩
  have hcalls := hall.answered c.id
  rwa [Call.callsFor_append, Call.callsFor_eq_nil hsilent, List.nil_append,
    h.callsFor_eq hids hc] at hcalls

/-- **A run that is over has dealt with each of its campaigns.** -/
theorem Chronicle.settled (hids : (due.map (·.id)).Nodup)
    (h : Chronicle room (opened due capacity t) past r) (hstored : Stored past)
    (hfinished : r.foreman = .finished) {before : List Call}
    (hbefore : room.world.History s before t) (hsilent : ∀ made ∈ before, made.owner ≠ c.id)
    (hk : r.workers[i]? = some ⟨c, .ended o⟩) :
    Settled room s c past r (room.task i) (deedsOf i past) o where
  course := h.course hk
  answered := h.answered hids hbefore hsilent (h.due_at hk)
  upshot := h.upshot_eq hids hstored hfinished hk
  handed := by
    refine ⟨_, _, World.history_append.mpr ⟨t, hbefore, h.history⟩, ?_⟩
    rw [Call.rowsFor_append, Call.rowsFor_eq_nil hsilent, List.nil_append]

variable {past' : List (Turn × Deed)} {r' : Run σ} {task task' : String} {done others : List Deed}
  {o' : Outcome}

/-- **Every run comes to the same for a campaign** in a world that keeps campaigns apart, but for what
its task is called: its worker does the same and ends in the same way. -/
theorem Settled.ended_unique (hapart : room.world.Separate s)
    (h : Settled room s c past r task done o) (h' : Settled room s c past' r' task' others o') :
    others = done ∧ o' = o :=
  h.course.ended_unique hapart h'.course h.answered h'.answered

end Run

end Mailshot
