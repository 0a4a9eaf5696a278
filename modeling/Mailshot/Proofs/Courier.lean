import Mailshot.Proofs.Worker.Scope

/-!
# Couriers

A courier takes mail or refuses it, for reasons of its own, and never crashes.  In a world whose mail
goes out by courier all else is as it was.  What a refusal leaves behind is a flag and two counts: a
worker that met with refusals, told as if every batch had been taken, is a worker whose batches were
taken.

* `Courier`, `World.via`, `World.willing`: mail by courier, and mail that is always taken;
* `Call.taken`, `Phase.taken`, `Counters.taken`: things told as if every batch had been taken;
* `Worker.act_taken`, `Worker.report_taken`: so told, a worker goes on as in the willing world.
-/

namespace Mailshot

variable {σ ρ : Type}

/-- Whoever takes the mail, in states of its own, or refuses it with a fault. -/
structure Courier (ρ : Type) where
  refusal (owner : Uuid) (mail : Mail) (q : ρ) : Option Fault × ρ

namespace World

/-- A call that leaves the courier alone. -/
def aside {α : Type} (call : σ → Reply α × σ) (s : σ × ρ) : Reply α × (σ × ρ) :=
  ((call s.1).1, (call s.1).2, s.2)

/-- The world with its mail going out by courier.  Handing mail over leaves the same traces in the
world as it did. -/
def via (w : World σ) (k : Courier ρ) : World (σ × ρ) where
  due cutoff := aside (w.due cutoff)
  update row := aside (w.update row)
  tenant owner id := aside (w.tenant owner id)
  page owner request := aside (w.page owner request)
  template owner tenant id := aside (w.template owner tenant id)
  send owner mail s :=
    let (refusal, q) := k.refusal owner mail s.2
    (refusal.elim (.ok ()) .fault, (w.send owner mail s.1).2, q)

/-- The world in which all mail is taken. -/
def willing (w : World σ) : World σ :=
  { w with send := fun owner mail s => (.ok (), (w.send owner mail s).2) }

end World

namespace Mailroom

/-- The mailroom whose mail goes out by courier. -/
def via (room : Mailroom σ) (k : Courier ρ) : Mailroom (σ × ρ) where
  world := room.world.via k
  settings := room.settings
  sender := room.sender
  task := room.task

/-- The mailroom whose mail is always taken. -/
def willing (room : Mailroom σ) : Mailroom σ :=
  { room with world := room.world.willing }

theorem via_alike (room : Mailroom σ) (k : Courier ρ) : (room.via k).Alike room.willing :=
  ⟨rfl, rfl, rfl⟩

end Mailroom

/-! ### As if every batch had been taken -/

/-- The counts with all batches among those that were taken. -/
def Counters.taken (c : Counters) : Counters :=
  { c with batchesSent := c.batchesSent + c.batchErrors, batchErrors := 0 }

/-- The call as if the mail had been taken. -/
def Call.taken : Call → Call
  | .send owner mail _ => .send owner mail (.ok ())
  | other => other

/-- The deed as if the mail had been taken. -/
def Deed.taken : Deed → Deed
  | .call made => .call made.taken
  | other => other

/-- The tally as if no batch had failed. -/
def Tally.taken (t : Tally) : Tally := { t with failed := 0 }

/-- The summary as if no batch had failed. -/
def Summary.taken (s : Summary) : Summary := { s with failedBatches := 0 }

/-- The outcome as if no batch had failed. -/
def Outcome.taken : Outcome → Outcome
  | .mailed summary => .mailed summary.taken
  | other => other

/-- The phase as if no batch had failed. -/
def Phase.taken : Phase → Phase
  | .posting t m rest => .posting t.taken m rest
  | .awaiting t m rest => .awaiting t.taken m rest
  | .reporting t percent rest => .reporting t.taken percent rest
  | .ended o => .ended o.taken
  | other => other

/-- The worker as if no batch had failed. -/
def Worker.taken (k : Worker) : Worker := ⟨k.campaign, k.phase.taken⟩

/-! ### Workers -/

@[simp] theorem Counters.taken_add (a b : Counters) : (a + b).taken = a.taken + b.taken := by
  show (Counters.add a b).taken = Counters.add a.taken b.taken
  simp only [taken, add, Counters.mk.injEq, true_and, and_true]
  omega

namespace Worker

variable {room : Mailroom σ} {k : Courier ρ}

@[simp] theorem isOver_taken (w : Worker) : w.taken.isOver = w.isOver := by
  obtain ⟨c, p⟩ := w
  cases p <;> rfl

@[simp] theorem isSending_taken (w : Worker) : w.taken.isSending = w.isSending := by
  obtain ⟨c, p⟩ := w
  cases p <;> rfl

theorem taken_toPosting (c : Campaign) (t : Tally) (rest : List Mailing) :
    (toPosting c t rest).taken = toPosting c t.taken rest := by
  cases rest <;> rfl

theorem taken_toContent (c : Campaign) (tenant : Tenant) (audience bodies : List String)
    (rest : List Variant) :
    (toContent (room.via k) c tenant audience bodies rest).taken =
      toContent room.willing c tenant audience bodies rest := by
  rw [toContent_alike (room.via_alike k)]
  cases rest with
  | nil => exact taken_toPosting _ _ _
  | cons => rfl

theorem taken_afterPage (tenant : Tenant) (p : Paging) :
    (afterPage tenant p).1.taken = (afterPage tenant p).1 ∧
      (afterPage tenant p).2.taken = (afterPage tenant p).2 := by
  cases p <;> exact ⟨rfl, rfl⟩

/-- What a worker brings to the desk does not tell whether batches failed. -/
theorem report_taken (w : Worker) :
    w.taken.report room.willing = (w.report (room.via k)).map fun (e, p) => (e, p.taken) := by
  obtain ⟨c, p⟩ := w
  cases p with
  | announcing tenant audience =>
      show some (Event.running c.id audience.length, _) = some (_, Phase.taken _)
      rw [taken_toContent]
      rfl
  | reporting t percent rest =>
      show some (Event.progress c.id percent, _) = some (_, Phase.taken _)
      rw [taken_toPosting]
      rfl
  | _ => rfl

theorem taken_tick (reply : Reply Page) : (Pager.tick reply).taken = Pager.tick reply := by
  cases reply <;> rfl

/-- **A call comes to the same** but for the reply of the courier, which is counted and no more. -/
theorem act_taken (w : Worker) (s : σ × ρ) :
    w.taken.act room.willing s.1 =
      (w.act (room.via k) s).map fun (p, counters, t) => (p.taken, counters.taken, t.1) := by
  obtain ⟨c, p⟩ := w
  cases p with
  | lookup =>
      simp only [taken, Phase.taken, act, Mailroom.willing, World.willing, Mailroom.via, World.via,
        World.aside]
      cases room.world.tenant c.id c.tenant s.1 with
      | mk reply t => cases reply <;> rfl
  | paging tenant p =>
      show some _ = some (Phase.taken (afterPage tenant _).1,
        Counters.taken (Pager.tick _ + (afterPage tenant _).2), _)
      rw [Counters.taken_add, taken_tick, (taken_afterPage tenant _).1, (taken_afterPage tenant _).2]
      rfl
  | content tenant audience bodies next rest =>
      have hreply : ((room.via k).world.template c.id tenant next.template s) =
          ((room.world.template c.id tenant next.template s.1).1,
            (room.world.template c.id tenant next.template s.1).2, s.2) := rfl
      have hreply' : room.willing.world.template c.id tenant next.template s.1 =
          room.world.template c.id tenant next.template s.1 := rfl
      simp only [taken, Phase.taken, act, Content.resolve, hreply, hreply']
      cases Content.ofReply next.template (room.world.template c.id tenant next.template s.1).1 with
      | ok html =>
          show some _ = some (Phase.taken _, _, _)
          rw [taken_toContent]
          rfl
      | fault | crash => rfl
  | awaiting t m rest =>
      have hreply : (room.via k).world.send c.id m.mail s =
          ((k.refusal c.id m.mail s.2).1.elim (.ok ()) .fault,
            (room.world.send c.id m.mail s.1).2, (k.refusal c.id m.mail s.2).2) := rfl
      simp only [act, hreply]
      cases (k.refusal c.id m.mail s.2).1 <;> rfl
  | _ => rfl

/-- The next deed is the same but for the reply of the courier. -/
theorem deed?_taken (w : Worker) (s : σ × ρ) :
    w.taken.deed? room.willing s.1 = (w.deed? (room.via k) s).map Deed.taken := by
  obtain ⟨c, p⟩ := w
  cases p <;> rfl

end Worker

end Mailshot
