import Mailshot.Proofs.Files
import Mailshot.Proofs.Lifecycle
import Mailshot.Proofs.Verdict

/-!
# Rounds of dispatches

Dispatches follow one another over the same rows.  What a run stores of a campaign is never pending
again, since a worker does not end in silence and the foreman speaks for those that break.  So a
campaign is picked up again only as long as not one of its rows could be stored.

* `Round`, `Rounds`: a dispatch that came back, and any number of them in turn;
* `Run.Chronicle.updates_begun`, `Run.Chronicle.updates_ne_nil`: the rows that a run hands over;
* `Round.Complete.row?_finish`: what a round leaves on file;
* `Mailroom.exists_round`: the program's dispatches are rounds;
* `Rounds.no_redelivery`: who is picked up again.
-/

namespace Mailshot

/-- The rows that a tale leads through are running or failed. -/
theorem Campaign.trail_begun {id : Uuid} {events : List Event} (h : Worker.Tale id events)
    (c : Campaign) : ∀ row ∈ c.trail events, row.status = .running ∨ row.status = .failed := by
  obtain ⟨before, hbefore, htold⟩ := h
  have hopen : ∀ row ∈ c.trail before, row.status = .running := by
    cases hbefore with
    | nothing => simp [trail]
    | @running n percents =>
        rw [trail, trail_progress]
        intro row hrow
        rcases List.mem_cons.mp hrow with rfl | hrow
        · rfl
        · obtain ⟨percent, -, rfl⟩ := List.mem_map.mp hrow
          rfl
  intro row hrow
  rcases htold with rfl | ⟨reason, rfl⟩
  · exact .inl (hopen row hrow)
  · rw [trail_append] at hrow
    rcases List.mem_append.mp hrow with hrow | hrow
    · exact .inl (hopen row hrow)
    · obtain rfl := List.mem_singleton.mp hrow
      exact .inr rfl

theorem Deed.mem_updates {ds : List Deed} {row : Campaign} {reply : Reply Unit} :
    (row, reply) ∈ updates ds ↔ Call.update row reply ∈ calls ds := by
  rw [updates, List.mem_filterMap]
  constructor
  · rintro ⟨made, hmade, hrow⟩
    cases made with
    | update =>
        obtain ⟨rfl, rfl⟩ := Prod.mk.inj (Option.some.inj hrow)
        exact hmade
    | _ => cases hrow
  · exact fun hmade => ⟨_, hmade, rfl⟩

namespace Run

variable {σ : Type} {room : Mailroom σ} {due : List Campaign} {capacity : Nat} {s : σ} {r : Run σ}
  {past : List (Turn × Deed)} {c : Campaign}

/-- **What is handed over is never pending**, whatever workers come to. -/
theorem Chronicle.updates_begun (hids : (due.map (·.id)).Nodup)
    (h : Chronicle room (opened due capacity s) past r) {row : Campaign} {reply : Reply Unit}
    (hmade : .update row reply ∈ Deed.calls (deeds past)) :
    row.status = .running ∨ row.status = .failed := by
  have hentered := h.entered
  have hrow : row ∈ r.desk.ledger.rowsEntered := by
    rw [← hentered.handed]
    exact List.mem_append_left _
      (List.mem_map_of_mem (f := Prod.fst) (Deed.mem_updates.mpr hmade))
  obtain ⟨c, hc, hid⟩ := List.mem_map.mp (h.within.entered row hrow)
  have hfollows := h.follows hids hc
  have hstate : row ∈ r.desk.ledger.states c.id := by
    rw [← hfollows.entered]
    exact List.mem_filter.mpr ⟨hrow, by simpa using hid.symm⟩
  have htale : Worker.Tale c.id (r.desk.ledger.events.filter (·.campaign = c.id)) :=
    (h.tale hids hc).of_beginning (hentered.events.filter _)
  refine Campaign.trail_begun htale c.timeless row.timeless ?_
  rw [← hfollows.trail]
  exact List.mem_map_of_mem hstate

/-- A row of every due campaign is handed over. -/
theorem Chronicle.updates_ne_nil (hids : (due.map (·.id)).Nodup)
    (h : Chronicle room (opened due capacity s) past r) (hstored : Stored past)
    (hfinished : r.foreman = .finished) (hc : c ∈ due) :
    ∃ row reply, .update row reply ∈ Deed.calls (deeds past) ∧ row.id = c.id := by
  obtain ⟨i, hi⟩ := List.mem_iff_getElem?.mp hc
  have hstates := (h.follows hids hc).trail
  have hhanded := (h.follows hids hc).entered
  rw [← (h.finished_served hstored hfinished).2] at hhanded
  obtain ⟨e, rest, hevents⟩ := List.exists_cons_of_ne_nil
    (h.events_ne_nil hids hstored hfinished hc)
  rw [hevents, Campaign.trail] at hstates
  obtain ⟨row, _, hrow, -⟩ := List.map_eq_cons_iff.mp hstates
  have hmem : row ∈ ((Deed.updates (deeds past)).map (·.1)).filter (·.id = c.id) := by
    simp [hhanded, hrow]
  obtain ⟨hupdate, hid⟩ := List.mem_filter.mp hmem
  obtain ⟨⟨row, reply⟩, hmade, rfl⟩ := List.mem_map.mp hupdate
  exact ⟨row, reply, Deed.mem_updates.mp hmade, by simpa using hid⟩

end Run

/-- One dispatch, with the settings, the sender and the names of tasks of its mailroom. -/
structure Round (σ : Type) where
  settings : DispatchSettings
  sender : String
  task : Nat → String
  cutoff : Int
  start : σ
  past : List (Run.Turn × Deed)
  verdict : Verdict
  finish : σ

namespace Round

variable {σ : Type}

/-- The mailroom of the dispatch. -/
def room (w : World σ) (x : Round σ) : Mailroom σ := ⟨w, x.settings, x.sender, x.task⟩

/-- The campaigns that the dispatch picks up. -/
def picked (w : World σ) (x : Round σ) : List Campaign :=
  match (w.due x.cutoff x.start).1 with
  | .ok due => due
  | _ => []

/-- The calls of the dispatch. -/
def calls (x : Round σ) : List Call :=
  Deed.calls (Run.deeds x.past)

/-- The dispatch came back with a result, and no call for storing a row crashed. -/
structure Complete (w : World σ) (x : Round σ) : Prop where
  dispatched : (x.room w).Dispatched x.cutoff x.start x.past x.verdict x.finish
  whole : x.verdict ≠ .broken
  stored : Run.Stored x.past

variable {w : World σ} {x : Round σ} {Sound : σ → Prop} {row? : Uuid → σ → Option Campaign}
  {id : Uuid} {c : Campaign}

/-- Nobody was picked up and nothing was done, or those who were have been run to the end. -/
theorem Complete.cases (h : x.Complete w) :
    (x.picked w = [] ∧ x.calls = [] ∧ ∃ reply, w.due x.cutoff x.start = (reply, x.finish)) ∨
      ∃ t r, w.due x.cutoff x.start = (.ok (x.picked w), t) ∧
        Run.Chronicle (x.room w) (Run.start (x.room w) (x.picked w) t) x.past r ∧
        r.foreman = .finished ∧ x.finish = r.world := by
  obtain ⟨settings, sender, task, cutoff, start, past, verdict, finish⟩ := x
  obtain ⟨hdispatched, hwhole, -⟩ := h
  cases hdispatched with
  | refused hdue | idle hdue =>
      have hdue : w.due cutoff start = _ := hdue
      exact .inl ⟨by simp [picked, hdue], rfl, _, hdue⟩
  | crashed | unfit => exact (hwhole rfl).elim
  | @done due t _ r hdue _ _ hrun hfinished =>
      have hdue : w.due cutoff start = _ := hdue
      refine .inr ⟨t, r, ?_, ?_, hfinished, rfl⟩
      · simp only [picked, hdue]
      · simpa only [picked, hdue] using hrun

theorem Complete.returns (h : x.Complete w) :
    ∀ row reply, Call.update row reply ∈ x.calls → row.id = id → reply.Returns :=
  fun _ _ hmade _ => h.stored _ (Deed.mem_updates.mpr hmade)

/-- The calls of a round, once it is known who is due. -/
theorem Complete.history (h : x.Complete w) :
    ∃ reply t, w.due x.cutoff x.start = (reply, t) ∧ w.History t x.calls x.finish := by
  rcases h.cases with ⟨-, hcalls, reply, hdue⟩ | ⟨t, r, hdue, hrun, -, hfinish⟩
  · exact ⟨reply, x.finish, hdue, hcalls ▸ rfl⟩
  · exact ⟨_, t, hdue, hfinish ▸ hrun.history⟩

theorem Complete.sound_finish (hf : w.Files Sound row?) (h : x.Complete w) (hs : Sound x.start) :
    Sound x.finish := by
  obtain ⟨reply, t, hdue, hhistory⟩ := h.history
  exact hf.sound_of_history (hf.asked hs hdue).1 hhistory

/-- **What a round leaves on file**: the last row that it stored, or the one at its start. -/
theorem Complete.row?_finish (hf : w.Files Sound row?) (h : x.Complete w) (hs : Sound x.start)
    (id : Uuid) (hrow : (row? id x.start).isSome) :
    row? id x.finish = (Call.storedFor id x.calls).getLast?.or (row? id x.start) := by
  obtain ⟨reply, t, hdue, hhistory⟩ := h.history
  obtain ⟨ht, hsame⟩ := hf.asked hs hdue
  rw [← hsame] at hrow ⊢
  exact hf.row?_of_history ht hrow hhistory h.returns

/-- What is picked up is on file and pending. -/
theorem Complete.of_picked (hf : w.Files Sound row?) (h : x.Complete w) (hs : Sound x.start)
    (hc : c ∈ x.picked w) : row? c.id x.start = some c ∧ c.status = .pending := by
  rcases h.cases with ⟨hnone, -⟩ | ⟨t, r, hdue, -⟩
  · rw [hnone] at hc
    cases hc
  · obtain ⟨hrow, hpending⟩ := (hf.due hs hdue).2 c hc
    exact ⟨hrow, by simpa using (Bool.and_eq_true_iff.mp hpending).1⟩

/-- A round stores rows that are running or failed. -/
theorem Complete.begun (hf : w.Files Sound row?) (h : x.Complete w) (hs : Sound x.start)
    {row : Campaign} (hrow : row ∈ Call.storedFor id x.calls) :
    row.status = .running ∨ row.status = .failed := by
  obtain ⟨hmade, -⟩ := Call.mem_storedFor.mp hrow
  rcases h.cases with ⟨-, hnone, -⟩ | ⟨t, r, hdue, hrun, -⟩
  · rw [hnone] at hmade
    cases hmade
  · exact hrun.updates_begun (hf.due hs hdue).1 hmade

/-- A round hands over a row of everyone it picked up. -/
theorem Complete.handed (hf : w.Files Sound row?) (h : x.Complete w) (hs : Sound x.start)
    (hc : c ∈ x.picked w) : ∃ row reply, .update row reply ∈ x.calls ∧ row.id = c.id := by
  rcases h.cases with ⟨hnone, -⟩ | ⟨t, r, hdue, hrun, hfinished, -⟩
  · rw [hnone] at hc
    cases hc
  · exact hrun.updates_ne_nil (hf.due hs hdue).1 h.stored hfinished hc

/-- A round hands over rows of those only that it picked up. -/
theorem Complete.picked_of_update (h : x.Complete w) {row : Campaign} {reply : Reply Unit}
    (hmade : .update row reply ∈ x.calls) : ∃ c ∈ x.picked w, c.id = row.id := by
  rcases h.cases with ⟨-, hnone, -⟩ | ⟨t, r, -, hrun, -⟩
  · rw [hnone] at hmade
    cases hmade
  · exact List.mem_map.mp (hrun.owner_mem h.stored _ hmade)

/-- **After a round** the row of a campaign that it picked up is as it was where no row of it could be
stored, and else it is the last one that was, running or failed. -/
theorem Complete.row?_picked (hf : w.Files Sound row?) (h : x.Complete w) (hs : Sound x.start)
    (hc : c ∈ x.picked w) :
    (Call.NoneStored c.id x.calls ∧ row? c.id x.finish = some c) ∨
      ¬ Call.NoneStored c.id x.calls ∧ ∃ row, (Call.storedFor c.id x.calls).getLast? = some row ∧
        row? c.id x.finish = some row ∧ (row.status = .running ∨ row.status = .failed) := by
  obtain ⟨hrow, -⟩ := h.of_picked hf hs hc
  have hfinish := h.row?_finish hf hs c.id (by simp [hrow])
  rw [← Call.storedFor_eq_nil_iff]
  cases hlast : (Call.storedFor c.id x.calls).getLast? with
  | none => exact .inl ⟨List.getLast?_eq_none_iff.mp hlast, by rw [hfinish, hlast, hrow]; rfl⟩
  | some row =>
      refine .inr ⟨fun hnone => by simp [hnone] at hlast, row, rfl, ?_, ?_⟩
      · rw [hfinish, hlast, Option.some_or]
      · exact h.begun hf hs (List.mem_of_getLast? hlast)

end Round

theorem Mailroom.Dispatched.stored {σ : Type} {room : Mailroom σ} {cutoff : Int} {s t : σ}
    {past : List (Run.Turn × Deed)} {verdict : Verdict}
    (hreturns : ∀ row s, (room.world.update row s).1.Returns)
    (h : room.Dispatched cutoff s past verdict t) : Run.Stored past := by
  cases h with
  | done _ _ _ hrun => exact hrun.stored hreturns
  | _ => simp [Run.Stored, Run.deeds, Deed.updates]

/-- **A dispatch of the program is a round**, where its turns do not run out, it does not break off,
and storing a row never crashes. -/
theorem Mailroom.exists_round {σ : Type} (room : Mailroom σ) (cutoff : Int) (now : Instant) (s : σ)
    (hfinished : ∀ due t, room.world.due cutoff s = (.ok due, t) →
      (Run.play room now due t).1.foreman = .finished)
    (hreturns : ∀ row s, (room.world.update row s).1.Returns)
    (hwhole : (room.dispatch cutoff now s).1.verdict ≠ .broken) :
    ∃ x : Round σ, x.Complete room.world ∧ x.room room.world = room ∧ x.cutoff = cutoff ∧
      x.start = s ∧ x.finish = (room.dispatch cutoff now s).2 := by
  obtain ⟨past, hdispatched⟩ := room.dispatched_dispatch cutoff now s hfinished
  exact ⟨⟨room.settings, room.sender, room.task, cutoff, s, past, _, _⟩,
    ⟨hdispatched, hwhole, hdispatched.stored hreturns⟩, rfl, rfl, rfl, rfl⟩

/-- Dispatches one after another, each in the state that the one before left. -/
def Rounds {σ : Type} (w : World σ) : σ → List (Round σ) → Prop
  | _, [] => True
  | s, x :: rest => x.start = s ∧ x.Complete w ∧ Rounds w x.finish rest

namespace Rounds

variable {σ : Type} {w : World σ} {Sound : σ → Prop} {row? : Uuid → σ → Option Campaign} {s : σ}
  {rounds : List (Round σ)}

/-- The rounds start in sound states, if the first one does. -/
theorem sound_start (hf : w.Files Sound row?) (hs : Sound s) (h : Rounds w s rounds) :
    ∀ x ∈ rounds, x.Complete w ∧ Sound x.start := by
  induction rounds generalizing s with
  | nil => simp
  | cons x rest ih =>
      obtain ⟨rfl, hx, hrest⟩ := h
      intro y hy
      rcases List.mem_cons.mp hy with rfl | hy
      · exact ⟨hx, hs⟩
      · exact ih (hx.sound_finish hf hs) hrest y hy

/-- **Once begun, never picked up again.**  A campaign whose row is not pending stays away from all
rounds to come: what they store of it is not pending either. -/
theorem not_picked (hf : w.Files Sound row?) (hs : Sound s) (h : Rounds w s rounds) {row : Campaign}
    {id : Uuid} (hrow : row? id s = some row) (hbegun : row.status ≠ .pending) :
    ∀ y ∈ rounds, ∀ c ∈ y.picked w, c.id ≠ id := by
  induction rounds generalizing s row with
  | nil => simp
  | cons x rest ih =>
      obtain ⟨rfl, hx, hrest⟩ := h
      intro y hy
      rcases List.mem_cons.mp hy with rfl | hy
      · rintro c hc rfl
        obtain ⟨hrow', hpending⟩ := hx.of_picked hf hs hc
        obtain rfl : row = c := Option.some.inj (hrow.symm.trans hrow')
        exact hbegun hpending
      · -- the round leaves the row alone, or stores another one that is not pending either
        have hfinish := hx.row?_finish hf hs id (by simp [hrow])
        have hs' := hx.sound_finish hf hs
        cases hlast : (Call.storedFor id x.calls).getLast? with
        | none =>
            rw [hlast, Option.none_or, hrow] at hfinish
            exact ih hs' hrest hfinish hbegun y hy
        | some stored =>
            rw [hlast, Option.some_or] at hfinish
            have hstored := hx.begun hf hs (List.mem_of_getLast? hlast)
            exact ih hs' hrest hfinish (by rcases hstored with h | h <;> simp [h]) y hy

/-- **A campaign is picked up only if no row of it was stored in any round before.** -/
theorem none_stored (hf : w.Files Sound row?) (hs : Sound s) (h : Rounds w s rounds) :
    rounds.Pairwise fun x y => ∀ c ∈ y.picked w, Call.NoneStored c.id x.calls := by
  induction rounds generalizing s with
  | nil => exact .nil
  | cons x rest ih =>
      obtain ⟨rfl, hx, hrest⟩ := h
      have hs' := hx.sound_finish hf hs
      refine List.pairwise_cons.mpr ⟨fun y hy c hc => ?_, ih hs' hrest⟩
      intro row reply hmade hid
      -- the row is one of a campaign that was picked up, and had any been stored, it would stay away
      obtain ⟨d, hd, hdid⟩ := hx.picked_of_update hmade
      rw [hid] at hdid
      rcases hx.row?_picked hf hs hd with ⟨hnone, -⟩ | ⟨-, last, -, hlast, hbegun⟩
      · exact hnone row reply hmade (hid.trans hdid.symm)
      · have hrow : last.status ≠ .pending := by rcases hbegun with h | h <;> simp [h]
        exact (hrest.not_picked hf hs' hlast hrow y hy c hc hdid.symm).elim

/-- **Where rows on file are never refused, a campaign is picked up once.** -/
theorem picked_once (hf : w.Files Sound row?)
    (htakes : ∀ {s : σ} {row : Campaign}, Sound s → (row? row.id s).isSome →
      (w.update row s).1 = .ok ())
    (hs : Sound s) (h : Rounds w s rounds) :
    rounds.Pairwise fun x y => ∀ c ∈ x.picked w, ∀ d ∈ y.picked w, d.id ≠ c.id := by
  refine (h.none_stored hf hs).imp_of_mem fun {x y} hx _ hnone c hc d hd hid => ?_
  obtain ⟨hcomplete, hstart⟩ := h.sound_start hf hs x hx
  obtain ⟨row, reply, hmade, hrowid⟩ := hcomplete.handed hf hstart hc
  obtain ⟨hrow, -⟩ := hcomplete.of_picked hf hstart hc
  obtain ⟨reply', t, hdue, hhistory⟩ := hcomplete.history
  obtain ⟨ht, hsame⟩ := hf.asked hstart hdue
  have hok := hf.ok_of_history htakes ht (by simp [hsame, hrow]) hhistory hcomplete.returns hmade
    hrowid
  have hfailed := hnone d hd row reply hmade (hrowid.trans hid.symm)
  rw [hok] at hfailed
  cases hfailed

end Rounds

/-- **No redelivery.**  Let dispatches that come back follow one another, asking at any times, in a
world that has rows on file; calls for storing rows may fail, though not crash, and all other calls
may come back, fail or crash as they like.  Whoever a dispatch picks up, every call for storing a row
of that campaign has failed in all dispatches before.  A dispatch makes such a call for everyone it
picks up.  After it the row on file is pending exactly if every such call failed in that dispatch, and
otherwise it is the last row that was stored, running or failed.  In an office each campaign is picked
up once. -/
theorem Rounds.no_redelivery :
    (∀ {σ : Type} {w : World σ} {Sound : σ → Prop} {row? : Uuid → σ → Option Campaign} {s : σ}
        {rounds : List (Round σ)}, w.Files Sound row? → Sound s → Rounds w s rounds →
      (rounds.Pairwise fun x y => ∀ c ∈ y.picked w, Call.NoneStored c.id x.calls) ∧
      ∀ x ∈ rounds, ∀ c ∈ x.picked w,
        (∃ row reply, .update row reply ∈ x.calls ∧ row.id = c.id) ∧
        ((∃ row, row? c.id x.finish = some row ∧ row.status = .pending) ↔
          Call.NoneStored c.id x.calls) ∧
        (¬ Call.NoneStored c.id x.calls →
          ∃ row, (Call.storedFor c.id x.calls).getLast? = some row ∧
            row? c.id x.finish = some row ∧ (row.status = .running ∨ row.status = .failed))) ∧
    ∀ {o : Office} {rounds : List (Round Office)}, o.store.Sound → Rounds Office.world o rounds →
      rounds.Pairwise fun x y =>
        ∀ c ∈ x.picked Office.world, ∀ d ∈ y.picked Office.world, d.id ≠ c.id := by
  refine ⟨?_, ?_⟩
  · intro σ w Sound row? s rounds hf hs h
    refine ⟨h.none_stored hf hs, fun x hx c hc => ?_⟩
    obtain ⟨hcomplete, hstart⟩ := h.sound_start hf hs x hx
    obtain ⟨-, hpending⟩ := hcomplete.of_picked hf hstart hc
    refine ⟨hcomplete.handed hf hstart hc, ?_⟩
    rcases hcomplete.row?_picked hf hstart hc with ⟨hnone, hrow⟩ | ⟨hsome, row, hlast, hrow, hbegun⟩
    · exact ⟨iff_of_true ⟨c, hrow, hpending⟩ hnone, fun hsome => (hsome hnone).elim⟩
    · refine ⟨iff_of_false ?_ hsome, fun _ => ⟨row, hlast, hrow, hbegun⟩⟩
      rintro ⟨other, hother, hpending⟩
      obtain rfl : row = other := Option.some.inj (hrow.symm.trans hother)
      rcases hbegun with hbegun | hbegun <;> simp [hbegun] at hpending
  · intro o rounds hs h
    exact h.picked_once Office.files (fun _ => Office.update_of_isSome) hs

namespace Season

variable {σ : Type}

/-- The mailroom with storm and frost, moved to another world. -/
def moved (w : World σ) : Mailroom σ := ⟨w, wet.settings, wet.sender, wet.task⟩

/-- The run over some campaigns in another world. -/
def runIn (w : World σ) (due : List Campaign) (s : σ) : List (Run.Turn × Deed) × Run σ :=
  Run.follow (moved w) turns (Run.start (moved w) due s)

/-- The round of such a run. -/
def roundIn (w : World σ) (due : List Campaign) (cutoff : Int) (s : σ) : Round σ where
  settings := wet.settings
  sender := wet.sender
  task := wet.task
  cutoff
  start := s
  past := (runIn w due s).1
  verdict := (runIn w due s).2.firstFault.elim .ok .failed
  finish := (runIn w due s).2.world

theorem chronicle_runIn (w : World σ) (due : List Campaign) (s : σ) :
    Run.Chronicle (moved w) (Run.start (moved w) due s) (runIn w due s).1 (runIn w due s).2 :=
  Run.chronicle_follow _ _ _

theorem complete_roundIn {w : World σ} {due : List Campaign} {cutoff : Int} {s : σ}
    (hdue : w.due cutoff s = (.ok due, s)) (hsome : due ≠ [])
    (hfit : (moved w).admits due.length = true)
    (hfinished : (runIn w due s).2.foreman = .finished) (hstored : Run.Stored (runIn w due s).1) :
    (roundIn w due cutoff s).Complete w := by
  have hrun := chronicle_runIn w due s
  rw [roundIn]
  generalize runIn w due s = p at hrun hfinished hstored ⊢
  refine ⟨.done hdue hsome hfit hrun hfinished, ?_, hstored⟩
  cases p.2.firstFault <;> simp

/-- A round after another one that finds nobody. -/
def idleAfter (x : Round σ) (cutoff : Int) : Round σ :=
  { x with cutoff, start := x.finish, past := [], verdict := .ok }

theorem complete_idleAfter {w : World σ} {x : Round σ} {cutoff : Int}
    (hdue : w.due cutoff x.finish = (.ok [], x.finish)) : (idleAfter x cutoff).Complete w :=
  ⟨.idle hdue, by simp [idleAfter], by simp [idleAfter, Run.Stored, Run.deeds, Deed.updates]⟩

/-- The version with hail in which no row of summer can be stored at first. -/
def lockedScript : Script :=
  { common with
    segments := [(.ofNat 51, .replies (pages ++ pages))]
    updates := (List.range 3).map fun n =>
      { id := summer.id, call := some n, reply := .fault (.persistence "locked") } }

/-- The round that picks up hail and summer. -/
def firstRound : Round Rehearsal := roundIn lockedScript.world dryDue 0 { rows := dryDue }

/-- The round that picks up summer again. -/
def secondRound : Round Rehearsal := roundIn lockedScript.world [summer] 60 firstRound.finish

theorem lockedRounds : Rounds lockedScript.world { rows := dryDue } [firstRound, secondRound] := by
  have hfirst : lockedScript.world.due 0 { rows := dryDue } = (.ok dryDue, { rows := dryDue }) := by
    decide +kernel
  have hsecond : lockedScript.world.due 60 firstRound.finish =
      (.ok [summer], firstRound.finish) := by
    have hrows : firstRound.finish.rows.filter (·.isDue 60) = [summer] := by decide +kernel
    show (Reply.ok (firstRound.finish.rows.filter (·.isDue 60)), _) = _
    rw [hrows]
  have hstart : secondRound.start = firstRound.finish := by rw [secondRound, roundIn]
  have hone : firstRound.Complete lockedScript.world :=
    complete_roundIn hfirst (by decide) (by decide) (by decide +kernel) (by decide +kernel)
  have htwo : secondRound.Complete lockedScript.world :=
    complete_roundIn hsecond (by decide) (by decide) (by decide +kernel) (by decide +kernel)
  exact ⟨by rw [firstRound, roundIn], hone, hstart, htwo, trivial⟩

/-- An office where summer is on file. -/
def office : Office where
  store := Store.empty.insertTenant Sample.acme
    |>.insertSegment (.ofNat 51) Sample.audience
    |>.insertTemplate (Sample.template (.ofNat 3))
    |>.insertCampaign summer

/-- The round of the office. -/
def officeRound : Round Office := roundIn Office.world [summer] 0 office

theorem office_due : Office.world.due 0 office = (.ok [summer], office) := by
  have hrows : office.store.campaigns.values.filter (·.isDue 0) = [summer] := by decide +kernel
  show (Reply.ok (List.mergeSort _ _), _) = _
  rw [hrows, List.mergeSort_singleton]

theorem officeRounds : Rounds Office.world office [officeRound, idleAfter officeRound 60] := by
  have hidle : Office.world.due 60 officeRound.finish = (.ok [], officeRound.finish) := by
    have hrows : officeRound.finish.store.campaigns.values.filter (·.isDue 60) = [] := by
      decide +kernel
    show (Reply.ok (List.mergeSort _ _), _) = _
    rw [hrows, List.mergeSort_nil]
  have hone : officeRound.Complete Office.world :=
    complete_roundIn office_due (by decide) (by decide) (by decide +kernel) (by decide +kernel)
  exact ⟨by rw [officeRound, roundIn], hone, by rw [idleAfter], complete_idleAfter hidle, trivial⟩

end Season

/-- Summer is picked up again, as no row of it could be stored, and hail is not; the office picks up
summer once. -/
theorem Rounds.no_redelivery_of_season :
    (Season.summer ∈ Season.secondRound.picked Season.lockedScript.world ∧
      Call.NoneStored Season.summer.id Season.firstRound.calls) ∧
    (∃ row, Season.firstRound.finish.rows.find? (·.id = Season.hail.id) = some row ∧
      (row.status = .running ∨ row.status = .failed)) ∧
    Season.summer ∈ Season.officeRound.picked Office.world ∧
      ∀ d ∈ (Season.idleAfter Season.officeRound 60).picked Office.world, d.id ≠ Season.summer.id := by
  obtain ⟨hworld, hoffice⟩ := no_redelivery
  have hfiles : Season.lockedScript.world.Files (fun r => (r.rows.map (·.id)).Nodup) fun id r =>
      r.rows.find? (·.id = id) := Script.files rfl (by decide +kernel)
  obtain ⟨hnone, hrows⟩ := hworld hfiles (by decide) Season.lockedRounds
  have hsummer : Season.summer ∈ Season.secondRound.picked Season.lockedScript.world := by
    decide +kernel
  have hhail : Season.hail ∈ Season.firstRound.picked Season.lockedScript.world := by decide +kernel
  have hpicked : Season.summer ∈ Season.officeRound.picked Office.world := by
    rw [Round.picked]
    show Season.summer ∈ (match (Office.world.due 0 Season.office).1 with | .ok due => due | _ => [])
    simp [Season.office_due]
  obtain ⟨-, -, hstored⟩ := hrows Season.firstRound (by simp) Season.hail hhail
  obtain ⟨row, -, hrow, hbegun⟩ := hstored (by
    rw [← Call.storedFor_eq_nil_iff]
    decide +kernel)
  refine ⟨⟨hsummer, (List.pairwise_pair.mp hnone) _ hsummer⟩, ⟨row, hrow, hbegun⟩, hpicked, ?_⟩
  have hsound : Season.office.store.Sound :=
    (Store.Built.empty.insertTenant _ |>.insertSegment _ _ |>.insertTemplate _
      |>.insertCampaign _).sound
  exact List.pairwise_pair.mp (hoffice hsound Season.officeRounds) _ hpicked

end Mailshot
