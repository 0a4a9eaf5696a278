import Mailshot.Dispatch
import Mailshot.Proofs.Courier
import Mailshot.Proofs.Run.Chronicle

/-!
# Runs by courier

A run whose courier refuses some of the mail, told as if every batch had been taken, is turn for turn
the run in which every batch is taken: nobody at the desk, no other worker and no later batch can tell
the difference.

* `Run.taken`: a run told as if every batch had been taken;
* `Run.step_taken`, `Run.deed?_taken`: so told, a turn is a turn in the willing world;
* `Run.Chronicle.taken`, `Run.follow_taken`: so are all turns of a run;
* `Mailroom.dispatch_taken`: so is a whole dispatch.
-/

namespace Mailshot

variable {σ ρ : Type}

/-- The run as if every batch had been taken.  The desk, the foreman and the faults are as they are. -/
def Run.taken (r : Run (σ × ρ)) : Run σ where
  waiting := r.waiting
  workers := r.workers.map Worker.taken
  foreman := r.foreman
  desk := r.desk
  faults := r.faults
  counters := r.counters.taken
  world := r.world.1

/-- The report as if every batch had been taken. -/
def Report.taken (report : Report) : Report :=
  { report with
    summaries := report.summaries.map Summary.taken
    counters := report.counters.taken }

namespace Run

variable {room : Mailroom σ} {k : Courier ρ}

/-- The clerk has no business with the courier. -/
theorem work_via (w : World σ) (now : Instant) (held : Bool) (d : Desk) (s : σ × ρ) :
    d.work (w.via k) now held s =
      (d.work w now held s.1).map fun (d, counters, t) => (d, counters, t, s.2) := by
  unfold Desk.work
  cases d.clerk with
  | waiting => cases d.queue <;> cases held <;> rfl
  | storing row =>
      simp only [World.via, World.aside]
      cases w.update row s.1 with
      | mk reply t => cases reply <;> rfl
  | closed | broken => rfl

theorem taken_work {w : World σ} {now : Instant} {held : Bool} {d desk : Desk} {s t : σ}
    {counters : Counters} (h : d.work w now held s = some (desk, counters, t)) :
    counters.taken = counters := by
  cases Desk.work_working h <;> rfl

theorem taken_offer {d desk : Desk} {e : Event} {counters : Counters}
    (h : d.offer e = some (desk, counters)) : counters.taken = counters := by
  unfold Desk.offer at h
  split at h
  · obtain ⟨-, rfl⟩ := Prod.mk.inj (Option.some.inj h)
    rfl
  · split at h
    · obtain ⟨-, rfl⟩ := Prod.mk.inj (Option.some.inj h)
      rfl
    · cases h

theorem length_filter_taken (workers : List Worker) (p : Worker → Bool)
    (hp : ∀ k : Worker, p k.taken = p k) :
    (workers.map Worker.taken).filter p = (workers.filter p).map Worker.taken := by
  rw [List.filter_map]
  congr 1
  exact List.filter_congr fun k _ => hp k

@[simp] theorem busy_taken (r : Run (σ × ρ)) : r.taken.busy = r.busy.map Worker.taken :=
  length_filter_taken _ _ fun k => by simp

@[simp] theorem sending_taken (r : Run (σ × ρ)) : r.taken.sending = r.sending.map Worker.taken :=
  length_filter_taken _ _ fun k => by simp

@[simp] theorem held_taken (r : Run (σ × ρ)) : r.taken.held = r.held := by
  have hholds : r.taken.foremanHolds = r.foremanHolds := rfl
  simp [held, hholds]

@[simp] theorem getElem?_taken (r : Run (σ × ρ)) (i : Nat) :
    r.taken.workers[i]? = r.workers[i]?.map Worker.taken :=
  List.getElem?_map

private theorem foremanStep_taken (r : Run (σ × ρ)) :
    foremanStep room.willing r.taken = (foremanStep (room.via k) r).map Run.taken := by
  have hforeman : r.taken.foreman = r.foreman := rfl
  have hdesk : r.taken.desk = r.desk := rfl
  have hsettings : room.willing.settings = (room.via k).settings := rfl
  unfold foremanStep
  rw [hforeman, hdesk]
  cases r.foreman with
  | starting =>
      have hwaiting : r.taken.waiting = r.waiting := rfl
      rw [hwaiting, busy_taken, List.length_map, hsettings]
      cases r.waiting with
      | nil => rfl
      | cons c rest =>
          dsimp only
          split
          · simp [Run.taken, Worker.taken, Phase.taken]
          · rfl
  | joining i =>
      simp only [getElem?_taken]
      cases r.workers[i]? with
      | none => rfl
      | some w =>
          obtain ⟨c, p⟩ := w
          cases p with
          | ended o => cases o <;> rfl
          | _ => rfl
  | reporting i campaign text =>
      have hnames : room.willing.task i = room.task i ∧ (room.via k).task i = room.task i := ⟨rfl, rfl⟩
      simp only [hnames]
      cases hoffer : r.desk.offer (brokenEvent campaign (room.task i) text) with
      | none => rfl
      | some p => simp [Run.taken, taken_offer hoffer]
  | closing =>
      dsimp only
      split <;> rfl
  | finished => rfl

private theorem workerStep_taken (r : Run (σ × ρ)) (i : Nat) :
    workerStep room.willing r.taken i = (workerStep (room.via k) r i).map Run.taken := by
  have hdesk : r.taken.desk = r.desk := rfl
  have hworld : r.taken.world = r.world.1 := rfl
  unfold workerStep
  rw [getElem?_taken]
  cases r.workers[i]? with
  | none => rfl
  | some w =>
      simp only [Option.map_some, Worker.report_taken (k := k), hdesk]
      cases w.report (room.via k) with
      | some p =>
          obtain ⟨e, phase⟩ := p
          simp only [Option.map_some]
          cases hoffer : r.desk.offer e with
          | none => rfl
          | some q => simp [Run.taken, Worker.taken, taken_offer hoffer]
      | none =>
          simp only [Option.map_none, hworld, Worker.act_taken (k := k)]
          cases w.act (room.via k) r.world with
          | none => rfl
          | some q => simp [Run.taken, Worker.taken]

private theorem clerkStep_taken (r : Run (σ × ρ)) (now : Instant) :
    clerkStep room.willing r.taken now = (clerkStep (room.via k) r now).map Run.taken := by
  have hdesk : r.taken.desk = r.desk := rfl
  have hworld : r.taken.world = r.world.1 := rfl
  have hvia : (room.via k).world = room.world.via k := rfl
  have hwilling : ∀ held, r.desk.work room.willing.world now held r.world.1 =
      r.desk.work room.world now held r.world.1 := fun _ => rfl
  unfold clerkStep
  rw [held_taken, hdesk, hworld, hvia, hwilling, work_via]
  cases hwork : r.desk.work room.world now r.held r.world.1 with
  | none => rfl
  | some q => simp [Run.taken, taken_work hwork]

/-- **A turn is the same turn** as if every batch had been taken. -/
theorem step_taken (r : Run (σ × ρ)) (turn : Turn) :
    step room.willing r.taken turn = (step (room.via k) r turn).map Run.taken := by
  cases turn with
  | foreman => exact foremanStep_taken r
  | worker i => exact workerStep_taken r i
  | clerk now => exact clerkStep_taken r now

/-- The deed of a turn is the same as if the mail had been taken. -/
theorem deed?_taken (r : Run (σ × ρ)) (turn : Turn) :
    deed? room.willing r.taken turn = (deed? (room.via k) r turn).map Deed.taken := by
  cases turn with
  | foreman =>
      have hforeman : r.taken.foreman = r.foreman := rfl
      unfold deed?
      rw [hforeman]
      cases r.foreman <;> rfl
  | worker i =>
      simp only [deed?, getElem?_taken]
      cases r.workers[i]? with
      | none => rfl
      | some w => exact Worker.deed?_taken w r.world
  | clerk now =>
      have hdesk : r.taken.desk = r.desk := rfl
      unfold deed?
      rw [hdesk]
      cases r.desk.clerk <;> rfl

/-- A chronicle as if all mail had been taken. -/
def takenPast (past : List (Turn × Deed)) : List (Turn × Deed) :=
  past.map fun p => (p.1, p.2.taken)

theorem takenPast_told (turn : Turn) (d : Option Deed) :
    takenPast (told turn d) = told turn (d.map Deed.taken) := by
  cases d <;> rfl

theorem takenPast_append (past more : List (Turn × Deed)) :
    takenPast (past ++ more) = takenPast past ++ takenPast more :=
  List.map_append

/-- **A run with refusals is a run without**, told as if every batch had been taken. -/
theorem Chronicle.taken {r t : Run (σ × ρ)} {past : List (Turn × Deed)}
    (h : Chronicle (room.via k) r past t) :
    Chronicle room.willing r.taken (takenPast past) t.taken := by
  induction h with
  | refl => exact .refl
  | @tail past t turn u _ hstep ih =>
      rw [takenPast_append, takenPast_told, ← deed?_taken]
      refine ih.tail ?_
      rw [step_taken, hstep, Option.map_some]

/-- The same turns do the same deeds. -/
theorem follow_taken (room : Mailroom σ) (k : Courier ρ) (turns : List Turn) (r : Run (σ × ρ)) :
    follow room.willing turns r.taken =
      (takenPast (follow (room.via k) turns r).1, (follow (room.via k) turns r).2.taken) := by
  unfold follow
  induction turns using List.reverseRecOn with
  | nil => rfl
  | append_singleton turns turn ih =>
      simp only [List.foldl_append, List.foldl_cons, List.foldl_nil, ih, step_taken (k := k)]
      split <;> rename_i hstep
      · obtain ⟨t, ht, rfl⟩ := Option.map_eq_some_iff.mp hstep
        simp only [ht, takenPast_append, takenPast_told, deed?_taken (k := k)]
      · rw [Option.map_eq_none_iff] at hstep
        simp only [hstep]

theorem turns_taken (now : Instant) (r : Run (σ × ρ)) : r.taken.turns now = r.turns now := by
  have hplaces : r.taken.workers.zipIdx = r.workers.zipIdx.map fun p => (p.1.taken, p.2) := by
    show (r.workers.map Worker.taken).zipIdx = _
    rw [List.zipIdx_map]
    rfl
  simp [turns, hplaces, List.filter_map, Function.comp_def]

theorem playFrom_taken (now : Instant) (fuel peak : Nat) (r : Run (σ × ρ)) :
    playFrom room.willing now fuel peak r.taken =
      ((playFrom (room.via k) now fuel peak r).1.taken,
        (playFrom (room.via k) now fuel peak r).2) := by
  induction fuel generalizing peak r with
  | zero => rfl
  | succ fuel ih =>
      have hturn : (r.taken.turns now).findSome? (step room.willing r.taken) =
          ((r.turns now).findSome? (step (room.via k) r)).map Run.taken := by
        rw [turns_taken, List.map_findSome?]
        exact congrArg (List.findSome? · _) (funext fun turn => step_taken r turn)
      rw [playFrom, playFrom, hturn]
      cases (r.turns now).findSome? (step (room.via k) r) with
      | none => rfl
      | some t => simpa using ih (max peak t.sending.length) t

theorem play_taken (room : Mailroom σ) (k : Courier ρ) (now : Instant) (due : List Campaign)
    (s : σ × ρ) :
    play room.willing now due s.1 =
      ((play (room.via k) now due s).1.taken, (play (room.via k) now due s).2) :=
  playFrom_taken now turnLimit 0 (start (room.via k) due s)

theorem summaries_taken (r : Run (σ × ρ)) : r.taken.summaries = r.summaries.map Summary.taken := by
  show (r.workers.map Worker.taken).filterMap _ = _
  rw [List.filterMap_map, summaries, List.map_filterMap]
  refine List.filterMap_congr fun w _ => ?_
  obtain ⟨c, p⟩ := w
  cases p with
  | ended o => cases o <;> rfl
  | _ => rfl

end Run

namespace Mailroom

variable {room : Mailroom σ} {k : Courier ρ}

theorem report_taken (n : Nat) (r : Run (σ × ρ)) (peak : Nat) :
    report n r.taken peak = (report n r peak).taken := by
  simp only [report, Report.taken, Run.summaries_taken, Report.mk.injEq, true_and, and_true]
  exact ⟨rfl, rfl, by simp [Run.taken, Run.completed], rfl⟩

/-- **A dispatch comes to the same** as if every batch had been taken. -/
theorem dispatch_taken (room : Mailroom σ) (k : Courier ρ) (cutoff : Int) (now : Instant)
    (s : σ × ρ) :
    room.willing.dispatch cutoff now s.1 =
      (((room.via k).dispatch cutoff now s).1.taken, ((room.via k).dispatch cutoff now s).2.1) := by
  have hdue : (room.via k).world.due cutoff s =
      ((room.world.due cutoff s.1).1, (room.world.due cutoff s.1).2, s.2) := rfl
  have hdue' : room.willing.world.due cutoff s.1 = room.world.due cutoff s.1 := rfl
  have hfit : ∀ n, room.willing.admits n = (room.via k).admits n := fun _ => rfl
  unfold dispatch
  rw [hdue, hdue']
  cases room.world.due cutoff s.1 with
  | mk reply t =>
      cases reply with
      | fault | crash => rfl
      | ok due =>
          cases due with
          | nil => rfl
          | cons c rest =>
              have hplay := Run.play_taken room k now (c :: rest) (t, s.2)
              simp only [hfit, hplay]
              split
              · simp only [report_taken, Report.taken, Counters.taken_add]
                rfl
              · rfl

end Mailroom

end Mailshot
