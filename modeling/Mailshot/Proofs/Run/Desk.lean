import Mailshot.Proofs.Ledger
import Mailshot.Proofs.Run.Owner

/-!
# The desk in a run

What the ledger has is the beginning of what was brought to the desk, and each row that comes of an
entry is handed over once, in order.  As long as no crash breaks the clerk, all that was brought is
entered in its turn or waits in the queue.  The clerk closes the desk only when nobody can bring
anything any more, so at the end of a run nothing is left behind; a crash is the last that comes of
any row.

* `Run.Stored`: no call for storing a row crashed;
* `Run.Entered`, `Run.Chronicle.entered`: what the clerk has done, and how it ended, in every run;
* `Run.Served`, `Run.Chronicle.served`: what there is to say of runs without a crash;
* `Run.Chronicle.follows`: the ledger tells the trail of every due campaign;
* `Run.Chronicle.finished_served`: at the end all is entered and handed over.
-/

namespace Mailshot

namespace Run

variable {σ : Type}

/-- No call for storing a row crashed. -/
def Stored (past : List (Turn × Deed)) : Prop :=
  ∀ p ∈ Deed.updates (deeds past), p.2.Returns

instance (past : List (Turn × Deed)) : Decidable (Stored past) :=
  inferInstanceAs (Decidable (∀ p ∈ Deed.updates (deeds past), p.2.Returns))

theorem stored_append {past more : List (Turn × Deed)} :
    Stored (past ++ more) ↔ Stored past ∧ Stored more := by
  simp [Stored, or_imp, forall_and]

theorem Stored.silent {past : List (Turn × Deed)} (h : Stored past) {turn : Turn} {d : Option Deed}
    (hupdates : Deed.updates d.toList = []) : Stored (past ++ told turn d) :=
  stored_append.mpr ⟨h, by simp [Stored, hupdates]⟩

/-- What the clerk has done of what came in, broken or not. -/
structure Entered (r : Run σ) (past : List (Turn × Deed)) : Prop where
  known : (∀ text, r.desk.clerk ≠ .broken text) →
    Deed.events (deeds past) = r.desk.ledger.events ++ r.desk.queue
  events : r.desk.ledger.events <+: Deed.events (deeds past)
  handed : (Deed.updates (deeds past)).map (·.1) ++ r.desk.clerk.row?.toList =
    r.desk.ledger.rowsEntered
  sound : (∀ text, r.desk.clerk ≠ .broken text) → Stored past
  /-- The clerk breaks over the last row that is handed over. -/
  broken : ∀ text, r.desk.clerk = .broken text → ∃ before row,
    Deed.updates (deeds past) = before ++ [(row, .crash text)] ∧ ∀ p ∈ before, p.2.Returns
  /-- Nobody brings anything to a desk that is closed. -/
  closed : r.desk.clerk = .closed → r.desk.queue = [] ∧ r.held = false
  finished : r.foreman = .finished → r.desk.isOver = true

variable {room : Mailroom σ} {due : List Campaign} {capacity : Nat} {s : σ} {r : Run σ}
  {past : List (Turn × Deed)}

/-- The foreman holds the desk until all workers were looked after. -/
theorem held_of_foremanHolds (h : r.foremanHolds = true) : r.held = true := by
  simp [held, h]

/-- A worker that can move holds the desk. -/
theorem held_of_move {i : Nat} {k : Worker} {d : Deed} {phase : Phase}
    (hk : r.workers[i]? = some k) (hmove : Worker.Move room k.campaign k.phase d phase) :
    r.held = true := by
  have hbusy : k ∈ r.busy := by
    simpa [busy, isOver_of_move hmove] using List.mem_of_getElem? hk
  cases hworkers : r.busy with
  | nil => simp [hworkers] at hbusy
  | cons => simp [held, hworkers]

/-- A desk that is held is not closed. -/
theorem Entered.ne_closed (h : Entered r past) (hheld : r.held = true) : r.desk.clerk ≠ .closed := by
  intro hclosed
  rw [(h.closed hclosed).2] at hheld
  cases hheld

/-- What was done at the desk stays done while nobody turns to it. -/
theorem Entered.aside (h : Entered r past) (hheld : r.held = true) {t : Run σ} {turn : Turn}
    {d : Option Deed} (hevents : Deed.events d.toList = []) (hupdates : Deed.updates d.toList = [])
    (hdesk : t.desk = r.desk) (hforeman : t.foreman = .finished → r.foreman = .finished) :
    Entered t (past ++ told turn d) where
  known := by simpa [hdesk, hevents] using h.known
  events := by simpa [hdesk, hevents] using h.events
  handed := by simpa [hdesk, hupdates] using h.handed
  sound hsound := (h.sound (hdesk ▸ hsound)).silent hupdates
  broken := by simpa [hdesk, hupdates] using h.broken
  closed hclosed := (h.ne_closed hheld (hdesk ▸ hclosed)).elim
  finished hfinished := hdesk ▸ h.finished (hforeman hfinished)

/-- An event that comes in while the desk is held waits in the queue, or is dropped where a crash has
broken the clerk. -/
theorem Entered.brought (h : Entered r past) (hheld : r.held = true) {t : Run σ} {turn : Turn}
    {e : Event} {counters : Counters} (hoffer : r.desk.offer e = some (t.desk, counters))
    (hforeman : t.foreman = .finished → r.foreman = .finished) :
    Entered t (past ++ told turn (some (.report e))) := by
  have hledger : t.desk.ledger = r.desk.ledger := Desk.offer_ledger hoffer
  obtain ⟨-, hclerk, -⟩ := Desk.offer_frame hoffer
  have hsilent : Deed.updates [Deed.report e] = [] := rfl
  refine ⟨fun hsound => ?_, ?_, ?_, fun hsound => ?_, ?_, fun hclosed => ?_, fun hfinished => ?_⟩
  · rw [hclerk] at hsound
    have hmanned : r.desk.isOver = false := by
      cases hc : r.desk.clerk with
      | waiting | storing => simp [Desk.isOver, hc]
      | closed => exact (h.ne_closed hheld hc).elim
      | broken text => exact (hsound text hc).elim
    simp [Desk.offer_queue hmanned hoffer, h.known hsound]
  · rw [hledger, deeds_append, Deed.events_append]
    exact h.events.trans (List.prefix_append _ _)
  · simpa [hclerk, hledger, hsilent] using h.handed
  · exact (h.sound (hclerk ▸ hsound)).silent hsilent
  · simpa [hclerk, hsilent] using h.broken
  · exact (h.ne_closed hheld (hclerk ▸ hclosed)).elim
  · have hover := h.finished (hforeman hfinished)
    rwa [Desk.isOver, ← hclerk] at hover

/-- **The clerk's account holds in every run**, whether or not a crash breaks the clerk. -/
theorem Chronicle.entered (h : Chronicle room (opened due capacity s) past r) : Entered r past := by
  induction h using Chronicle.transition_induction with
  | refl =>
      exact ⟨fun _ => rfl, List.prefix_refl _, rfl, fun _ => by simp [Stored, deeds, Deed.updates],
        by simp [opened, Desk.opened], by simp [opened, Desk.opened], by simp [opened]⟩
  | @tail past t turn d u hpast _ hstep ih =>
      -- while the clerk is there the run is not over
      have hunder : t.desk.isOver = false → t.foreman ≠ .finished := by
        intro hmanned hforeman
        simp [ih.finished hforeman] at hmanned
      cases hstep with
      | spawn hforeman =>
          exact ih.aside (held_of_foremanHolds (by simp [foremanHolds, hforeman])) rfl rfl rfl
            (by simp [hforeman])
      | spawned hforeman | joinMailed hforeman | joinFailed hforeman | joinBroken hforeman
      | joinedAll hforeman =>
          exact ih.aside (held_of_foremanHolds (by simp [foremanHolds, hforeman])) rfl rfl rfl
            (by simp)
      | reportBroken hforeman hoffer =>
          exact ih.brought (held_of_foremanHolds (by simp [foremanHolds, hforeman])) hoffer
            (by simp)
      | finish hforeman hover =>
          refine ⟨by simpa using ih.known, by simpa using ih.events, by simpa using ih.handed,
            fun hsound => (ih.sound hsound).silent rfl, by simpa using ih.broken, fun hclosed => ?_,
            fun _ => hover⟩
          obtain ⟨hqueue, hheld⟩ := ih.closed hclosed
          exact ⟨hqueue, by simpa [held, foremanHolds, hforeman, busy] using hheld⟩
      | act hk hmove hsilent =>
          exact ih.aside (held_of_move hk hmove) (by simp [Deed.events, hsilent])
            hmove.updates_eq_nil rfl id
      | report hk hmove hoffer => exact ih.brought (held_of_move hk hmove) hoffer id
      | enter hclerk hqueue =>
          have hknown := ih.known (by simp [hclerk])
          refine ⟨fun _ => by simpa [hqueue] using hknown, ?_, ?_, fun _ => ?_, ?_, ?_, ?_⟩
          · simp [hknown, hqueue]
          · simpa [hclerk] using ih.handed
          · exact (ih.sound (by simp [hclerk])).silent rfl
          · exact fun text hbroken => (Desk.afterEntry_ne_broken _ text hbroken).elim
          · exact fun hclosed => (Desk.afterEntry_ne_closed _ hclosed).elim
          · exact fun hforeman => (hunder (by simp [Desk.isOver, hclerk]) hforeman).elim
      | close hclerk hqueue hheld =>
          refine ⟨fun _ => by simpa using ih.known (by simp [hclerk]), by simpa using ih.events, ?_,
            fun _ => ?_, by simp, fun _ => ⟨hqueue, hheld⟩, fun _ => rfl⟩
          · simpa [hclerk] using ih.handed
          · exact (ih.sound (by simp [hclerk])).silent rfl
      | store hclerk _ hreturns =>
          refine ⟨fun _ => by simpa using ih.known (by simp [hclerk]), by simpa using ih.events, ?_,
            fun _ => ?_, by simp, by simp, ?_⟩
          · simpa [hclerk, Deed.updates] using ih.handed
          · exact stored_append.mpr ⟨ih.sound (by simp [hclerk]), by simpa [Stored, Deed.updates]⟩
          · exact fun hforeman => (hunder (by simp [Desk.isOver, hclerk]) hforeman).elim
      | @storeCrash _ row text _ hclerk =>
          have hstored := ih.sound (by simp [hclerk])
          refine ⟨by simp, by simpa using ih.events, ?_, by simp, ?_, by simp, fun _ => rfl⟩
          · simpa [hclerk, Deed.updates, Clerk.row?] using ih.handed
          · intro text' hbroken
            obtain rfl : text = text' := by simpa using hbroken
            exact ⟨_, row, by simp [Deed.updates], hstored⟩

/-- What the clerk has done of what came in, where no crash broke it. -/
structure Served (r : Run σ) (past : List (Turn × Deed)) : Prop where
  sound : ∀ text, r.desk.clerk ≠ .broken text
  events : Deed.events (deeds past) = r.desk.ledger.events ++ r.desk.queue
  handed : (Deed.updates (deeds past)).map (·.1) ++ r.desk.clerk.row?.toList =
    r.desk.ledger.rowsEntered
  closed : r.desk.clerk = .closed → r.desk.queue = [] ∧ r.held = false
  finished : r.foreman = .finished → r.desk.clerk = .closed

/-- **The clerk's work.**  Unless a crash breaks the clerk, everything that came in is entered or
waits, and every row that came of it was handed over or is about to be. -/
theorem Chronicle.served (h : Chronicle room (opened due capacity s) past r)
    (hstored : Stored past) : Served r past := by
  have hentered := h.entered
  have hsound : ∀ text, r.desk.clerk ≠ .broken text := by
    intro text hbroken
    obtain ⟨before, row, hupdates, -⟩ := hentered.broken text hbroken
    exact hstored (row, .crash text) (by simp [hupdates]) text rfl
  refine ⟨hsound, hentered.known hsound, hentered.handed, hentered.closed, fun hfinished => ?_⟩
  have hover := hentered.finished hfinished
  cases hclerk : r.desk.clerk with
  | waiting | storing => simp [Desk.isOver, hclerk] at hover
  | closed => rfl
  | broken text => exact (hsound text hclerk).elim

/-- A desk that is held has its clerk. -/
theorem Served.isOver_of_held (h : Served r past) (hheld : r.held = true) :
    r.desk.isOver = false := by
  cases hclerk : r.desk.clerk with
  | waiting | storing => simp [Desk.isOver, hclerk]
  | closed =>
      rw [(h.closed hclerk).2] at hheld
      cases hheld
  | broken text => exact (h.sound text hclerk).elim

/-- The ledger tells the trail of every due campaign. -/
theorem Chronicle.follows (hids : (due.map (·.id)).Nodup)
    (h : Chronicle room (opened due capacity s) past r) {c : Campaign} (hc : c ∈ due) :
    r.desk.ledger.Follows c := by
  induction h using Chronicle.transition_induction with
  | refl => exact Ledger.follows_ofRows hids hc
  | tail _ _ hstep ih =>
      cases hstep with
      | enter => exact ih.enter _ _
      | reportBroken _ hoffer => exact (Desk.offer_ledger hoffer).symm ▸ ih
      | report _ _ hoffer => exact (Desk.offer_ledger hoffer).symm ▸ ih
      | _ => exact ih

/-- At the end of a run nothing is left at the desk. -/
theorem Chronicle.finished_served (h : Chronicle room (opened due capacity s) past r)
    (hstored : Stored past) (hfinished : r.foreman = .finished) :
    Deed.events (deeds past) = r.desk.ledger.events ∧
      (Deed.updates (deeds past)).map (·.1) = r.desk.ledger.rowsEntered := by
  have hserved := h.served hstored
  have hclosed := hserved.finished hfinished
  have hqueue := (hserved.closed hclosed).1
  exact ⟨by simpa [hqueue] using hserved.events, by simpa [hclosed] using hserved.handed⟩

/-- At the end of a run the events for a campaign have been entered: those of its worker, and then
the foreman's report where the worker broke. -/
theorem Chronicle.events_entered (hids : (due.map (·.id)).Nodup)
    (h : Chronicle room (opened due capacity s) past r) (hstored : Stored past)
    (hfinished : r.foreman = .finished) {i : Nat} {c : Campaign} {o : Outcome}
    (hk : r.workers[i]? = some ⟨c, .ended o⟩) :
    r.desk.ledger.events.filter (·.campaign = c.id) =
      Deed.events (deedsOf i past) ++ (Worker.parting? (room.task i) ⟨c, .ended o⟩).toList := by
  have hi : i < r.workers.length := (List.getElem?_eq_some_iff.mp hk).1
  have haftermath : r.aftermath room i = Worker.parting? (room.task i) ⟨c, .ended o⟩ := by
    rw [aftermath, if_pos (by simpa [joined, hfinished] using hi), hk]
    rfl
  rw [← (h.finished_served hstored hfinished).1, h.events_for hids (h.due_at hk), haftermath]

/-- At the end of a run the row of a campaign is where the events for it led. -/
theorem Chronicle.final_row (hids : (due.map (·.id)).Nodup)
    (h : Chronicle room (opened due capacity s) past r) (hstored : Stored past)
    (hfinished : r.foreman = .finished) {i : Nat} {c : Campaign} {o : Outcome}
    (hk : r.workers[i]? = some ⟨c, .ended o⟩) :
    ∃ row, r.desk.ledger.row? c.id = some row ∧ row.timeless = c.timeless.after
      (Deed.events (deedsOf i past) ++ (Worker.parting? (room.task i) ⟨c, .ended o⟩).toList) := by
  have hrow := (h.follows hids (List.mem_of_getElem? (h.due_at hk))).timeless_row
  rw [h.events_entered hids hstored hfinished hk] at hrow
  exact Option.map_eq_some_iff.mp hrow

end Run

end Mailshot
