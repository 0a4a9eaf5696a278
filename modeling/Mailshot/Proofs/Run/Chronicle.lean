import Mailshot.Proofs.Desk
import Mailshot.Proofs.Worker.Course
import Mailshot.Proofs.Worker.Stage
import Mailshot.Run

/-!
# Chronicles

Turns are taken in any order, and a chronicle tells which deeds they did, each with whose turn it
was.  Everything that can be seen of a run is in its chronicle: the calls of each worker, the rows
that the clerk stores, and the events in the order in which they come to the desk.

* `Run.Transition`: every way in which a run goes on;
* `Run.step_transition`: a turn is one of them;
* `Run.Chronicle`: turns one after another, with their deeds;
* `Run.Chronicle.history`: the calls of a chronicle are a history of the world;
* `Run.follow`: the chronicle of given turns;
* `Run.chronicle_play`: the turns that are taken when the program runs have a chronicle;
* `Sample.run`: the chronicle of two campaigns by one schedule.
-/

namespace Mailshot.Run

variable {σ : Type}

/-- A run over due campaigns that has yet to begin, at a desk of some capacity. -/
def opened (due : List Campaign) (capacity : Nat) (s : σ) : Run σ :=
  { waiting := due, desk := .opened due capacity, world := s }

/-- The deed of a turn, if it does one. -/
def deed? (room : Mailroom σ) (r : Run σ) : Turn → Option Deed
  | .foreman =>
    match r.foreman with
    | .reporting i campaign text => some (.report (brokenEvent campaign (room.task i) text))
    | _ => none
  | .worker i => r.workers[i]?.bind (·.deed? room r.world)
  | .clerk _ =>
    match r.desk.clerk with
    | .storing row => some (.call (.update row (room.world.update row r.world).1))
    | _ => none

/-- Every way in which a run goes on, with whose turn it is and the deed done. -/
inductive Transition (room : Mailroom σ) (r : Run σ) : Turn → Option Deed → Run σ → Prop where
  | spawn {c : Campaign} {rest : List Campaign} (hforeman : r.foreman = .starting)
      (hwaiting : r.waiting = c :: rest) (hfree : r.busy.length < room.settings.concurrency) :
      Transition room r .foreman none
        { r with waiting := rest, workers := r.workers ++ [{ campaign := c }] }
  | spawned (hforeman : r.foreman = .starting) (hwaiting : r.waiting = []) :
      Transition room r .foreman none { r with foreman := .joining 0 }
  | joinMailed {i : Nat} {k : Worker} {summary : Summary} (hforeman : r.foreman = .joining i)
      (hk : r.workers[i]? = some k) (hphase : k.phase = .ended (.mailed summary)) :
      Transition room r .foreman none { r with foreman := .joining (i + 1) }
  | joinFailed {i : Nat} {k : Worker} {cause : Fault} (hforeman : r.foreman = .joining i)
      (hk : r.workers[i]? = some k) (hphase : k.phase = .ended (.failed cause)) :
      Transition room r .foreman none
        { r with foreman := .joining (i + 1), faults := cause :: r.faults }
  | joinBroken {i : Nat} {k : Worker} {text : String} (hforeman : r.foreman = .joining i)
      (hk : r.workers[i]? = some k) (hphase : k.phase = .ended (.broken text)) :
      Transition room r .foreman none
        { r with foreman := .reporting i k.campaign.id text,
                 counters := r.counters + Worker.failure }
  | reportBroken {i : Nat} {campaign : Uuid} {text : String} {desk : Desk} {counters : Counters}
      (hforeman : r.foreman = .reporting i campaign text)
      (hoffer : r.desk.offer (brokenEvent campaign (room.task i) text) = some (desk, counters)) :
      Transition room r .foreman (some (.report (brokenEvent campaign (room.task i) text)))
        { r with foreman := .joining (i + 1)
                 faults := brokenFault campaign (room.task i) text :: r.faults
                 desk
                 counters := r.counters + counters }
  | joinedAll {i : Nat} (hforeman : r.foreman = .joining i) (hnone : r.workers[i]? = none) :
      Transition room r .foreman none { r with foreman := .closing }
  | finish (hforeman : r.foreman = .closing) (hover : r.desk.isOver = true) :
      Transition room r .foreman none { r with foreman := .finished }
  | act {i : Nat} {k : Worker} {d : Deed} {phase : Phase} {counters : Counters} {s : σ}
      (hk : r.workers[i]? = some k) (hmove : Worker.Move room k.campaign k.phase d phase)
      (hsilent : d.event? = none) (hworld : room.world.History r.world (Deed.calls [d]) s)
      (hact : k.act room r.world = some (phase, counters, s)) :
      Transition room r (.worker i) (some d)
        { r with workers := r.workers.set i { k with phase },
                 counters := r.counters + counters, world := s }
  | report {i : Nat} {k : Worker} {e : Event} {phase : Phase} {desk : Desk} {counters : Counters}
      (hk : r.workers[i]? = some k) (hmove : Worker.Move room k.campaign k.phase (.report e) phase)
      (hoffer : r.desk.offer e = some (desk, counters)) :
      Transition room r (.worker i) (some (.report e))
        { r with workers := r.workers.set i { k with phase }, desk,
                 counters := r.counters + counters }
  | enter {now : Instant} {e : Event} {rest : List Event} (hclerk : r.desk.clerk = .waiting)
      (hqueue : r.desk.queue = e :: rest) :
      Transition room r (.clerk now) none
        { r with
          desk := { r.desk with
            queue := rest
            ledger := r.desk.ledger.enter now e
            clerk := Desk.afterEntry (r.desk.ledger.entry now e) }
          counters := r.counters +
            { updatesApplied := if (r.desk.ledger.entry now e).changed then 1 else 0 } }
  | close {now : Instant} (hclerk : r.desk.clerk = .waiting) (hqueue : r.desk.queue = [])
      (hheld : r.held = false) :
      Transition room r (.clerk now) none
        { r with desk := { r.desk with clerk := .closed }, counters := r.counters + {} }
  | store {now : Instant} {row : Campaign} {reply : Reply Unit} {s : σ}
      (hclerk : r.desk.clerk = .storing row) (hreply : room.world.update row r.world = (reply, s))
      (hreturns : reply.Returns) :
      Transition room r (.clerk now) (some (.call (.update row reply)))
        { r with
          desk := { r.desk with clerk := .waiting }
          counters := r.counters + { persistErrors := if reply.isOk then 0 else 1 }
          world := s }
  | storeCrash {now : Instant} {row : Campaign} {text : String} {s : σ}
      (hclerk : r.desk.clerk = .storing row)
      (hreply : room.world.update row r.world = (.crash text, s)) :
      Transition room r (.clerk now) (some (.call (.update row (.crash text))))
        { r with
          desk := { r.desk with queue := [], clerk := .broken text }
          counters := r.counters + {}
          world := s }

private theorem foremanStep_transition {room : Mailroom σ} {r t : Run σ}
    (h : foremanStep room r = some t) :
    Transition room r .foreman (deed? room r .foreman) t := by
  unfold foremanStep at h
  cases hforeman : r.foreman with
  | starting =>
      rw [deed?, hforeman]
      rw [hforeman] at h
      cases hwaiting : r.waiting with
      | nil =>
          simp only [hwaiting, Option.some.injEq] at h
          have hspawned : Transition room r .foreman none _ := .spawned hforeman hwaiting
          rw [hwaiting] at hspawned
          exact h ▸ hspawned
      | cons c rest =>
          by_cases hfree : r.busy.length < room.settings.concurrency <;>
            simp only [hwaiting, hfree, if_true, if_false, Option.some.injEq, reduceCtorEq] at h
          have hspawn : Transition room r .foreman none _ := .spawn hforeman hwaiting hfree
          rw [hforeman] at hspawn
          exact h ▸ hspawn
  | joining i =>
      rw [deed?, hforeman]
      rw [hforeman] at h
      cases hk : r.workers[i]? with
      | none =>
          simp only [hk, Option.some.injEq] at h
          exact h ▸ .joinedAll hforeman hk
      | some k =>
          simp only [hk] at h
          split at h <;> rename_i hphase <;> simp only [Option.some.injEq, reduceCtorEq] at h
          · exact h ▸ .joinMailed hforeman hk hphase
          · exact h ▸ .joinFailed hforeman hk hphase
          · exact h ▸ .joinBroken hforeman hk hphase
  | reporting i campaign text =>
      rw [deed?, hforeman]
      simp only [hforeman, Option.map_eq_some_iff] at h
      obtain ⟨⟨desk, counters⟩, hoffer, rfl⟩ := h
      exact .reportBroken hforeman hoffer
  | closing =>
      rw [deed?, hforeman]
      by_cases hover : r.desk.isOver = true <;>
        simp only [hforeman, hover, if_true, Bool.false_eq_true, if_false, Option.some.injEq,
          reduceCtorEq] at h
      exact h ▸ .finish hforeman hover
  | finished => simp [hforeman] at h

private theorem workerStep_transition {room : Mailroom σ} {r t : Run σ} {i : Nat}
    (h : workerStep room r i = some t) :
    Transition room r (.worker i) (deed? room r (.worker i)) t := by
  unfold workerStep at h
  cases hk : r.workers[i]? with
  | none => simp [hk] at h
  | some k =>
      cases hreport : k.report room with
      | some p =>
          obtain ⟨e, phase⟩ := p
          simp only [hk, hreport, Option.map_eq_some_iff] at h
          obtain ⟨⟨desk, counters⟩, hoffer, rfl⟩ := h
          obtain ⟨hdeed, hmove⟩ := Worker.report_move hreport r.world
          simp only [deed?, hk, Option.bind_some, hdeed]
          exact .report hk hmove hoffer
      | none =>
          simp only [hk, hreport, Option.map_eq_some_iff] at h
          obtain ⟨⟨phase, counters, s⟩, hact, rfl⟩ := h
          obtain ⟨d, hdeed, hsilent, hmove, hworld⟩ := Worker.act_move hact
          simp only [deed?, hk, Option.bind_some, hdeed]
          exact .act hk hmove hsilent hworld hact

private theorem clerkStep_transition {room : Mailroom σ} {r t : Run σ} {now : Instant}
    (h : clerkStep room r now = some t) :
    Transition room r (.clerk now) (deed? room r (.clerk now)) t := by
  simp only [clerkStep, Option.map_eq_some_iff] at h
  obtain ⟨⟨desk, counters, s⟩, hwork, rfl⟩ := h
  have hworking := Desk.work_working hwork
  cases hworking with
  | enter hclerk hqueue =>
      simp only [deed?, hclerk]
      exact .enter hclerk hqueue
  | close hclerk hqueue hheld =>
      simp only [deed?, hclerk]
      exact .close hclerk hqueue hheld
  | store hclerk hreply hreturns =>
      simp only [deed?, hclerk, hreply]
      exact .store hclerk hreply hreturns
  | storeCrash hclerk hreply =>
      simp only [deed?, hclerk, hreply]
      exact .storeCrash hclerk hreply

/-- **A turn is a transition.** -/
theorem step_transition {room : Mailroom σ} {r t : Run σ} {turn : Turn}
    (h : step room r turn = some t) : Transition room r turn (deed? room r turn) t := by
  cases turn with
  | foreman => exact foremanStep_transition h
  | worker i => exact workerStep_transition h
  | clerk now => exact clerkStep_transition h

/-- A turn is a transition, whichever deed it does. -/
theorem exists_transition {room : Mailroom σ} {r t : Run σ} {turn : Turn}
    (h : step room r turn = some t) : ∃ d, Transition room r turn d t :=
  ⟨_, step_transition h⟩

/-- What is told of a turn. -/
def told (turn : Turn) (d : Option Deed) : List (Turn × Deed) :=
  d.toList.map (turn, ·)

/-- Turns lead from one state to another, doing these deeds. -/
inductive Chronicle (room : Mailroom σ) (r : Run σ) : List (Turn × Deed) → Run σ → Prop where
  | refl : Chronicle room r [] r
  | tail {past t turn u} : Chronicle room r past t → step room t turn = some u →
      Chronicle room r (past ++ told turn (deed? room t turn)) u

/-- To show something of all chronicles, show it of the start and that transitions keep it. -/
@[elab_as_elim] theorem Chronicle.transition_induction {room : Mailroom σ} {r : Run σ}
    {motive : ∀ past t, Chronicle room r past t → Prop} (refl : motive [] r .refl)
    (tail : ∀ {past t turn d u} (h : Chronicle room r past t) (h' : Chronicle room r _ u),
      Transition room t turn d u → motive past t h → motive (past ++ told turn d) u h')
    {past : List (Turn × Deed)} {t : Run σ} (h : Chronicle room r past t) : motive past t h := by
  induction h with
  | refl => exact refl
  | tail hpast hstep ih => exact tail hpast (hpast.tail hstep) (step_transition hstep) ih

/-- All deeds of a chronicle. -/
def deeds (past : List (Turn × Deed)) : List Deed :=
  past.map (·.2)

/-- The deeds of one worker. -/
def deedsOf (i : Nat) (past : List (Turn × Deed)) : List Deed :=
  past.filterMap fun p => if p.1 = .worker i then some p.2 else none

@[simp] theorem deeds_append (past more : List (Turn × Deed)) :
    deeds (past ++ more) = deeds past ++ deeds more := by
  simp [deeds]

@[simp] theorem deeds_told (turn : Turn) (d : Option Deed) : deeds (told turn d) = d.toList := by
  cases d <;> rfl

@[simp] theorem deedsOf_append (i : Nat) (past more : List (Turn × Deed)) :
    deedsOf i (past ++ more) = deedsOf i past ++ deedsOf i more := by
  simp [deedsOf]

@[simp] theorem deedsOf_told (i : Nat) (turn : Turn) (d : Option Deed) :
    deedsOf i (told turn d) = if turn = .worker i then d.toList else [] := by
  cases d <;> by_cases h : turn = .worker i <;> simp [deedsOf, told, h]

/-- The states that are reached are those that chronicles lead to. -/
theorem reach_iff_chronicle {room : Mailroom σ} {r t : Run σ} :
    Reach room r t ↔ ∃ past, Chronicle room r past t := by
  constructor
  · intro h
    induction h with
    | refl => exact ⟨[], .refl⟩
    | tail _ hstep ih =>
        obtain ⟨past, hpast⟩ := ih
        obtain ⟨turn, hturn⟩ := hstep
        exact ⟨_, hpast.tail hturn⟩
  · rintro ⟨past, h⟩
    induction h with
    | refl => exact .refl
    | @tail past t turn u _ hturn ih => exact .tail ih ⟨turn, hturn⟩

/-- **The calls of a chronicle are a history of the world.** -/
theorem Chronicle.history {room : Mailroom σ} {r t : Run σ} {past : List (Turn × Deed)}
    (h : Chronicle room r past t) : room.world.History r.world (Deed.calls (deeds past)) t.world := by
  induction h using Chronicle.transition_induction with
  | refl => rfl
  | @tail past t turn d u _ _ hstep ih =>
      have hlast : room.world.History t.world (Deed.calls d.toList) u.world := by
        cases hstep with
        | act _ _ _ hworld => exact hworld
        | store _ hreply | storeCrash _ hreply => exact World.history_singleton.mpr hreply
        | _ => rfl
      simpa using World.history_append.mpr ⟨_, ih, hlast⟩

/-- Takes turns one after another, passing over those in which nobody can go on. -/
def follow (room : Mailroom σ) (turns : List Turn) (r : Run σ) : List (Turn × Deed) × Run σ :=
  turns.foldl (fun p turn =>
    match step room p.2 turn with
    | some t => (p.1 ++ told turn (deed? room p.2 turn), t)
    | none => p) ([], r)

theorem chronicle_follow (room : Mailroom σ) (turns : List Turn) (r : Run σ) :
    Chronicle room r (follow room turns r).1 (follow room turns r).2 := by
  unfold follow
  induction turns using List.reverseRecOn with
  | nil => exact .refl
  | append_singleton turns turn ih =>
      rw [List.foldl_append, List.foldl_cons, List.foldl_nil]
      split
      · next t ht => exact ih.tail ht
      · exact ih

/-- The turns that are taken when the program runs are turns. -/
theorem reach_playFrom {room : Mailroom σ} {now : Instant} {fuel peak : Nat} {r t : Run σ}
    (h : Reach room r t) : Reach room r (playFrom room now fuel peak t).1 := by
  induction fuel generalizing peak t with
  | zero => exact h
  | succ fuel ih =>
      rw [playFrom]
      split
      · rename_i u hu
        obtain ⟨turn, _, hstep⟩ := List.exists_of_findSome?_eq_some hu
        exact ih (.tail h ⟨turn, hstep⟩)
      · exact h

/-- **The program keeps to the chronicles.**  What it comes to when it runs, some chronicle of the due
campaigns leads to. -/
theorem chronicle_play (room : Mailroom σ) (now : Instant) (due : List Campaign) (s : σ) :
    ∃ past, Chronicle room (opened due (room.settings.eventBuffer due.length) s) past
      (play room now due s).1 :=
  reach_iff_chronicle.mp (reach_playFrom .refl)

end Mailshot.Run

namespace Mailshot.Sample

/-! ### A small mailroom

Spring is mailed out to three members in two variants, the second call being refused; the provider
crashes in the second call for autumn, so that its worker breaks.  The world forgets every call, and
one schedule lets both run side by side. -/

/-- A variant of a campaign. -/
def variant (campaign id template ratio : Nat) (subject : String) : Variant :=
  { id := .ofNat id, campaign := .ofNat campaign, template := .ofNat template, subject, ratio }

/-- A campaign, pending. -/
def campaign (id : Nat) (name : String) (variants : List Variant) : Campaign :=
  { id := .ofNat id, tenant := .ofNat 1, name, segment := .ofNat 2, variants, schedule := 0,
    createdAt := default, updatedAt := default }

/-- The campaign that is mailed out.  Its third variant is left without members. -/
def spring : Campaign :=
  campaign 10 "spring"
    [variant 10 11 3 60 "Spring is here", variant 10 12 4 40 "Last chance",
      variant 10 13 3 0 "Too late"]

/-- The campaign that breaks. -/
def autumn : Campaign :=
  campaign 20 "autumn" [variant 20 21 3 50 "Leaves", variant 20 22 4 50 "Rain"]

/-- The due campaigns. -/
def due : List Campaign := [spring, autumn]

/-- The tenant of both. -/
def acme : Tenant := { id := .ofNat 1, name := "Acme" }

/-- The first page of the segment, and the last one. -/
def firstPage : Page := ⟨["ann@example.com", "bob@example.com"], "2"⟩

/-- The last page of the segment. -/
def lastPage : Page := ⟨["cleo@example.com"], ""⟩

/-- The audience of both. -/
def audience : List String := ["ann@example.com", "bob@example.com", "cleo@example.com"]

/-- A stored template, its body being `<b>`. -/
def template (id : Uuid) : Template := ⟨id, .ofNat 1, "note", "PGI+"⟩

/-- What the provider says to a call. -/
def sent (variant : Uuid) : Reply Unit :=
  if variant = .ofNat 12 then .fault (.send "refused")
  else if variant = .ofNat 22 then .crash "out of paper"
  else .ok ()

/-- The world, which forgets every call. -/
def world : World Unit where
  due _ s := (.ok due, s)
  update _ s := (.ok (), s)
  tenant _ _ s := (.ok acme, s)
  page _ request s := (.ok (if request.cursor = "" then firstPage else lastPage), s)
  template _ _ id s := (.ok (template id), s)
  send _ mail s := (sent mail.variant, s)

/-- The mailroom, with pages of two members and batches of two.  The clerk's task has the number 1, and
the workers' tasks have the next ones. -/
def room : Mailroom Unit where
  world
  settings := { maxRecipientsPerSend := 2, audiencePageSize := 2 }
  sender := "room@example.com"
  task i := toString (i + 2)

/-- The time at which rows change. -/
def now : Instant := default

/-- Turn about: the foreman, both workers and the clerk. -/
def round : List Run.Turn := [.foreman, .worker 0, .worker 1, .clerk now]

/-- The schedule. -/
def turns : List Run.Turn := (List.replicate 30 round).flatten

/-- The run over the due campaigns by that schedule, at a desk with room for one event. -/
def run : List (Run.Turn × Deed) × Run Unit :=
  Run.follow room turns (Run.opened due 1 ())

theorem chronicle : Run.Chronicle room (Run.opened due 1 ()) run.1 run.2 :=
  Run.chronicle_follow _ _ _

end Mailshot.Sample
