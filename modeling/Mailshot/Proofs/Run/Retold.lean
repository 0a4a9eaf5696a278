import Mailshot.Proofs.Run.Upshot
import Mailshot.Proofs.Worker.Setback

/-!
# The same by another name

A run shows what a task is called in one place only: where the worker of a campaign broke, the last
row of the campaign says so with the name of the worker's task, and so does the fault of the run if
that is blamed on the campaign.  So what two runs come to for a campaign may be the same but for this
name, which neither of them chooses.

* `Upshot.Retold`, `Fault.Retold`: the same, but for the name of a task;
* `Upshot.Retold.replies`: then the same rows are stored, but for the last one where a world reads it;
* `Worker.Course.retold`, `Worker.Course.retold_dated`: what a worker comes to is the same, whatever
  its task is called;
* `Worker.fault_retold`: so is the fault that it leaves behind.
-/

namespace Mailshot

/-- The row of a campaign whose worker broke off with `text`, in the task of this name. -/
def Campaign.brokenOff (c : Campaign) (task text : String) : Campaign :=
  { c with status := .failed, failureReason := some (Fault.brokenTask text task) }

/-- This is what is made of the row by what is told of the worker. -/
theorem Campaign.merge_broken (c : Campaign) (id : Uuid) (task text : String) :
    c.merge (Run.brokenEvent id task text).delta = c.brokenOff task text := rfl

/-- What a run comes to for a campaign, told with one name of its task and with another.  The name is
told in the last row only, and only where the last call crashed. -/
inductive Upshot.Retold (task task' : String) : Upshot → Upshot → Prop where
  | same (u : Upshot) : Retold task task' u u
  | broken (before : List Call) {made : Call} {text : String} (hcrash : made.crash? = some text)
      (rows : List Campaign) (row : Campaign) :
      Retold task task'
        ⟨before ++ [made], rows ++ [row.brokenOff task text], some (row.brokenOff task text)⟩
        ⟨before ++ [made], rows ++ [row.brokenOff task' text], some (row.brokenOff task' text)⟩

/-- A fault, told with one name of a task and with another. -/
inductive Fault.Retold (task task' : String) : Fault → Fault → Prop where
  | same (f : Fault) : Retold task task' f f
  | broken (campaign : Uuid) (text : String) :
      Retold task task' (Run.brokenFault campaign task text) (Run.brokenFault campaign task' text)

namespace Upshot.Retold

variable {task task' : String} {u u' : Upshot}

/-- Where no call crashed, nothing tells what a task is called. -/
theorem eq_of_sound (h : Retold task task' u u') (hsound : ∀ made ∈ u.calls, made.crash? = none) :
    u' = u := by
  cases h with
  | same => rfl
  | @broken before made text hcrash =>
      have hnone := hsound made (by simp)
      rw [hcrash] at hnone
      cases hnone

variable {σ τ : Type} {w : World σ} {w' : World τ} {s t : σ} {s' t' : τ} {id : Uuid}
  {calls calls' : List Call}

/-- **The same rows are stored**, but for the last one where the name of a task is told in it and the
world reads that. -/
theorem replies (h : Retold task task' u u') (hstores : w.StoresAlike w' s s' id calls calls')
    (hcalls : w.History s calls t) (hcalls' : w'.History s' calls' t')
    (hrows : (Call.rowsFor id calls).map (·.1) = u.rows)
    (hrows' : (Call.rowsFor id calls').map (·.1) = u'.rows) :
    (Call.repliesFor id calls').dropLast = (Call.repliesFor id calls).dropLast ∧
      (w.Unread ∨ u' = u → Call.repliesFor id calls' = Call.repliesFor id calls) := by
  have hequal : u' = u → Call.repliesFor id calls' = Call.repliesFor id calls := by
    rintro rfl
    have hsame := World.rows_agree hstores hcalls hcalls' (hrows.trans hrows'.symm)
    rw [Call.repliesFor, Call.repliesFor, hsame]
  cases h with
  | same => exact ⟨congrArg List.dropLast (hequal rfl), fun _ => hequal rfl⟩
  | @broken before made text hcrash rows row =>
      obtain ⟨first, last, hsplit, rfl, hlast⟩ := List.map_eq_append_iff.mp hrows
      obtain ⟨first', last', hsplit', hfirst, hlast'⟩ := List.map_eq_append_iff.mp hrows'
      obtain ⟨⟨_, reply⟩, rfl, rfl⟩ := List.map_eq_singleton_iff.mp hlast
      obtain ⟨⟨_, reply'⟩, rfl, rfl⟩ := List.map_eq_singleton_iff.mp hlast'
      -- the rows before the last one are the same, and so are their replies
      have hlength : first'.length = first.length := by simpa using congrArg List.length hfirst
      have hearlier : first = first' := by
        have htake := hstores.take_eq (n := first.length) hcalls hcalls'
          (by simp [hsplit, hsplit', ← hlength, hfirst])
        simpa [hsplit, hsplit', ← hlength] using htake
      subst hearlier
      refine ⟨by simp [Call.repliesFor, hsplit, hsplit'], ?_⟩
      rintro (hunread | heq)
      · have hat : (Call.rowsFor id calls)[first.length]? =
            some (row.brokenOff task text, reply) := by simp [hsplit]
        have hat' : (Call.rowsFor id calls')[first.length]? =
            some (row.brokenOff task' text, reply') := by simp [hsplit']
        obtain ⟨xs, v, full, hxs, hhistory, hbefore, hid, hfull, rfl⟩ := hcalls.row_at hat
        obtain ⟨ys, v', full', hys, hhistory', hbefore', hid', hfull', rfl⟩ := hcalls'.row_at hat'
        -- with the other name in it, the one row is the other, and the reply does not depend on that
        obtain ⟨reworded, hreworded⟩ : ∃ row : Campaign,
            row = { full with failureReason := some (Fault.brokenTask text task') } := ⟨_, rfl⟩
        have hrewordedid : reworded.id = id := by rw [hreworded, hid]
        have htimeless : reworded.timeless = full'.timeless := by
          rw [hfull', hreworded]
          exact congrArg (fun row : Campaign =>
            { row with failureReason := some (Fault.brokenTask text task') }) hfull
        have hreply := hstores hxs hys hhistory hhistory' hrewordedid hid' htimeless
          (by simp [hbefore, hbefore', hsplit, hsplit'])
        rw [hreworded, hunread] at hreply
        simp [Call.repliesFor, hsplit, hsplit', hreply]
      · exact hequal heq

end Upshot.Retold

namespace Worker

variable {σ : Type} {room : Mailroom σ} {c : Campaign} {deeds : List Deed} {o : Outcome}

/-- **What a worker comes to is the same, whatever its task is called.** -/
theorem Course.retold (h : Course room c deeds (.ended o)) (task task' : String) :
    Upshot.Retold task task' (upshot c task deeds o) (upshot c task' deeds o) := by
  cases o with
  | mailed | failed => exact .same _
  | broken text =>
      obtain ⟨before, made, hcalls, hcrash⟩ := h.of_broken
      have hupshot : ∀ name, upshot c name deeds (.broken text) =
          ⟨before ++ [made], c.timeless.trail (Deed.events deeds) ++
            [(c.timeless.after (Deed.events deeds)).brokenOff name text],
            some ((c.timeless.after (Deed.events deeds)).brokenOff name text)⟩ := by
        intro name
        simp only [upshot, parting?, Option.toList_some, hcalls, Campaign.trail_append,
          Campaign.after_append]
        rfl
      rw [hupshot, hupshot]
      exact .broken before hcrash _ _

/-- So is the fault that it leaves behind. -/
theorem fault_retold (task task' : String) (k : Worker) :
    Option.Rel (Fault.Retold task task') (k.fault? task) (k.fault? task') := by
  unfold fault?
  split
  · exact .some (.same _)
  · exact .some (.broken _ _)
  · exact .none

/-- What the deeds of a worker that has ended come to, with the times of change, while the clock stands
still. -/
def datedUpshot (c : Campaign) (now : Instant) (task : String) (deeds : List Deed) (o : Outcome) :
    Upshot :=
  let rows := c.stamped now (Deed.events deeds ++ (parting? task ⟨c, .ended o⟩).toList)
  { calls := Deed.calls deeds, rows, row := some (rows.getLast?.getD c) }

/-- A worker that broke has told of no failure itself, so the row of its campaign is changed by what
is told of it. -/
theorem Course.status_ne_failed {text : String} (h : Course room c deeds (.ended (.broken text)))
    (hstatus : c.status ≠ .failed) (now : Instant) :
    ((c.stamped now (Deed.events deeds)).getLast?.getD c).status ≠ .failed := by
  have hlast : ((c.stamped now (Deed.events deeds)).getLast?.getD c).timeless =
      c.timeless.after (Deed.events deeds) := by
    rw [← Campaign.getLast?_trail, ← Campaign.timeless_stamped now, List.getLast?_map]
    cases (c.stamped now (Deed.events deeds)).getLast? <;> rfl
  have hunderway := h.stage.tale.2 (by simp)
  show ((c.stamped now (Deed.events deeds)).getLast?.getD c).timeless.status ≠ .failed
  rw [hlast]
  by_cases hevents : Deed.events deeds = []
  · rw [hevents]
    exact hstatus
  · rw [Campaign.status_after_underway hunderway hevents]
    simp

/-- With the times of change, too, what a worker comes to is the same, whatever its task is called. -/
theorem Course.retold_dated (h : Course room c deeds (.ended o)) (hstatus : c.status ≠ .failed)
    (now : Instant) (task task' : String) :
    Upshot.Retold task task' (datedUpshot c now task deeds o)
      (datedUpshot c now task' deeds o) := by
  cases o with
  | mailed | failed => exact .same _
  | broken text =>
      obtain ⟨before, made, hcalls, hcrash⟩ := h.of_broken
      obtain ⟨last, hlast⟩ : ∃ last,
          (c.stamped now (Deed.events deeds)).getLast?.getD c = last := ⟨_, rfl⟩
      have hrunning := h.status_ne_failed hstatus now
      rw [hlast] at hrunning
      have happly : ∀ name, (last.apply now (Run.brokenEvent c.id name text).delta).1 =
          ({ last with updatedAt := now } : Campaign).brokenOff name text := by
        intro name
        have hchanged : last.merge (Run.brokenEvent c.id name text).delta ≠ last := by
          rw [Campaign.merge_broken]
          exact fun hsame => hrunning (congrArg Campaign.status hsame).symm
        rw [Campaign.apply, if_neg hchanged]
        rfl
      have hupshot : ∀ name, datedUpshot c now name deeds (.broken text) =
          ⟨before ++ [made], c.stamped now (Deed.events deeds) ++
            [({ last with updatedAt := now } : Campaign).brokenOff name text],
            some (({ last with updatedAt := now } : Campaign).brokenOff name text)⟩ := by
        intro name
        simp only [datedUpshot, parting?, Option.toList_some, hcalls, Campaign.stamped_snoc, hlast,
          happly, List.getLast?_append, List.getLast?_singleton, Option.some_or, Option.getD_some]
      rw [hupshot, hupshot]
      exact .broken before hcrash _ _

end Worker

namespace Run

variable {σ : Type} {room : Mailroom σ} {s : σ} {r r' : Run σ} {past past' : List (Turn × Deed)}
  {c : Campaign} {task task' : String} {done done' : List Deed} {o o' : Outcome}

/-- Of two runs that dealt with a campaign, the same rows are stored, but for the last one where the
name of a task is told in it and the world reads that. -/
theorem Settled.replies (hstores : room.world.StoresApart s)
    (h : Settled room s c past r task done o) (h' : Settled room s c past' r' task' done' o')
    (hretold : Upshot.Retold task task' (r.upshot past c) (r'.upshot past' c)) :
    (Call.repliesFor c.id (Deed.calls (deeds past'))).dropLast =
        (Call.repliesFor c.id (Deed.calls (deeds past))).dropLast ∧
      (room.world.Unread ∨ r'.upshot past' c = r.upshot past c →
        Call.repliesFor c.id (Deed.calls (deeds past')) =
          Call.repliesFor c.id (Deed.calls (deeds past))) := by
  obtain ⟨xs, t, hxs, hrows⟩ := h.handed
  obtain ⟨ys, u, hys, hrows'⟩ := h'.handed
  have hreplies := hretold.replies (hstores.alike xs ys) hxs hys
    (congrArg (List.map (·.1)) hrows) (congrArg (List.map (·.1)) hrows')
  simpa only [Call.repliesFor, hrows, hrows'] using hreplies

end Run

end Mailshot
