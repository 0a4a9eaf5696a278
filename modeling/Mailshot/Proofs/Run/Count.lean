import Mailshot.Proofs.Count
import Mailshot.Proofs.Run.Upshot

/-!
# What a run counts

Every count of a run is that of something seen: the calls that it makes, the events that change a
row, and the workers that fail or break.  So runs that do the same count the same, in whatever order.

* `Run.setbacks`: the workers that failed, and those that were seen to have broken;
* `Run.Chronicle.counters_eq`: what a run that is over has counted;
* `Run.Chronicle.changesOf_eq`: the events for a campaign settle how often its row was changed.
-/

namespace Mailshot

namespace Run

variable {σ : Type} {room : Mailroom σ} {due : List Campaign} {capacity capacity' : Nat} {s : σ}
  {r r' t : Run σ} {past past' : List (Turn × Deed)} {c : Campaign} {i : Nat} {k : Worker}

/-- The number of workers whose end the foreman has seen. -/
def counted (r : Run σ) : Nat :=
  match r.foreman with
  | .reporting i _ _ => i + 1
  | _ => r.joined

/-- The workers that failed, and those that were seen to have broken. -/
def setbacks (r : Run σ) : Nat :=
  r.workers.countP (·.hasFailed) + (r.workers.take r.counted).countP (·.hasBroken)

theorem setbacks_congr (hworkers : t.workers = r.workers) (hcounted : t.counted = r.counted) :
    t.setbacks = r.setbacks := by
  rw [setbacks, setbacks, hworkers, hcounted]

/-- The foreman sees whether the next worker has broken. -/
theorem setbacks_next (hk : r.workers[i]? = some k) (hworkers : t.workers = r.workers)
    (hcounted : r.counted = i) (hnext : t.counted = i + 1) :
    t.setbacks = r.setbacks + if k.hasBroken then 1 else 0 := by
  rw [setbacks, setbacks, hworkers, hcounted, hnext, List.take_add_one, hk, List.countP_append,
    Option.toList_some, List.countP_singleton, Nat.add_assoc]

/-- The workers whose end the foreman has seen do not move. -/
theorem Seen.counted_le_of_move (h : Seen room r) {d : Deed} {phase : Phase}
    (hk : r.workers[i]? = some k) (hmove : Worker.Move room k.campaign k.phase d phase) :
    r.counted ≤ i := by
  have hjoined := h.joined_le_of_move hk hmove
  unfold counted
  split
  · next j campaign text hreporting =>
      obtain ⟨k', hk', hphase, -⟩ := h.broken j campaign text hreporting
      simp only [joined, hreporting] at hjoined
      rcases Nat.eq_or_lt_of_le hjoined with rfl | hlt
      · obtain rfl : k = k' := by simpa [hk] using hk'
        rw [hphase] at hmove
        exact (Worker.not_move_ended hmove).elim
      · exact hlt
  · exact hjoined

/-- A worker that moves may fail. -/
theorem Seen.setbacks_move (h : Seen room r) {d : Deed} {phase : Phase} (hk : r.workers[i]? = some k)
    (hmove : Worker.Move room k.campaign k.phase d phase)
    (hworkers : t.workers = r.workers.set i { k with phase }) (hforeman : t.foreman = r.foreman)
    {a : Nat} (hfails : (if Worker.hasFailed { k with phase } then 1 else 0) =
      (if k.hasFailed then 1 else 0) + a) : t.setbacks = r.setbacks + a := by
  have hcounted : t.counted = r.counted := by simp [counted, joined, hforeman, hworkers]
  obtain ⟨hi, hat⟩ := List.getElem?_eq_some_iff.mp hk
  have hpos : k.hasFailed = true → 0 < r.workers.countP (·.hasFailed) := fun hfailed =>
    List.countP_pos_iff.mpr ⟨k, List.mem_of_getElem? hk, hfailed⟩
  rw [setbacks, setbacks, hworkers, hcounted, List.take_set_of_le (h.counted_le_of_move hk hmove),
    List.countP_set hi, hat, hfails]
  split <;> rename_i hfailed
  · have := hpos hfailed
    omega
  · omega

theorem offer_counters {d desk : Desk} {e : Event} {counters : Counters}
    (hclerk : d.isOver = false) (h : d.offer e = some (desk, counters)) : counters = {} := by
  by_cases hroom : d.queue.length < d.capacity <;>
    simp only [Desk.offer, hclerk, hroom, Bool.false_eq_true, if_false, if_true, Option.some.injEq,
      Prod.mk.injEq, reduceCtorEq] at h
  exact h.2.symm

/-- **Every count is that of something seen.** -/
theorem Chronicle.counters_of_stored (h : Chronicle room (opened due capacity s) past r)
    (hstored : Stored past) :
    r.counters = ((Deed.calls (deeds past)).map Call.tick).sum +
      { campaignsFailed := r.setbacks, updatesApplied := r.desk.ledger.changes } := by
  induction h using Chronicle.transition_induction with
  | refl => rfl
  | @tail past t turn d u hpast _ hstep ih =>
      obtain ⟨hbefore, hlast⟩ := stored_append.mp hstored
      replace ih := ih hbefore
      have hserved := hpast.served hbefore
      -- what a turn counts is what its calls add, its setback and its change
      have hturn : ∀ a b, u.counters = t.counters + (((Deed.calls d.toList).map Call.tick).sum +
            { campaignsFailed := a, updatesApplied := b }) →
          u.setbacks = t.setbacks + a → u.desk.ledger.changes = t.desk.ledger.changes + b →
          u.counters = ((Deed.calls (deeds (past ++ told turn d))).map Call.tick).sum +
            { campaignsFailed := u.setbacks, updatesApplied := u.desk.ledger.changes } := by
        intro a b hcounters hsetbacks hchanges
        have hboth : ({ campaignsFailed := t.setbacks + a
                        updatesApplied := t.desk.ledger.changes + b } : Counters) =
            { campaignsFailed := t.setbacks, updatesApplied := t.desk.ledger.changes } +
              { campaignsFailed := a, updatesApplied := b } := rfl
        rw [deeds_append, deeds_told, Deed.calls_append, List.map_append, List.sum_append, hcounters,
          hsetbacks, hchanges, ih, hboth, add_add_add_comm]
      cases hstep with
      | spawn hforeman =>
          refine hturn 0 0 (add_zero _).symm ?_ rfl
          simp [setbacks, counted, joined, hforeman, Worker.hasFailed]
      | spawned hforeman | finish hforeman =>
          exact hturn 0 0 (add_zero _).symm
            (setbacks_congr rfl (by simp [counted, joined, hforeman])) rfl
      | joinMailed hforeman hk hphase | joinFailed hforeman hk hphase =>
          refine hturn 0 0 (add_zero _).symm ((setbacks_next (r := t) hk ?_ ?_ ?_).trans ?_) rfl
          · rfl
          · simp [counted, joined, hforeman]
          · rfl
          · simp [Worker.hasBroken, hphase]
      | joinBroken hforeman hk hphase =>
          refine hturn 1 0 rfl ((setbacks_next (r := t) hk ?_ ?_ ?_).trans ?_) rfl
          · rfl
          · simp [counted, joined, hforeman]
          · rfl
          · simp [Worker.hasBroken, hphase]
      | reportBroken hforeman hoffer =>
          have hclerk := hserved.isOver_of_held (held_of_foremanHolds (by simp [foremanHolds, hforeman]))
          refine hturn 0 0 ?_ (setbacks_congr rfl ?_) ?_
          · rw [offer_counters hclerk hoffer]
            rfl
          · simp [counted, joined, hforeman]
          · rw [Desk.offer_ledger hoffer]
            rfl
      | @joinedAll i hforeman hnone =>
          have hle := hpast.seen.joined_le
          have hlength := List.getElem?_eq_none_iff.mp hnone
          refine hturn 0 0 (add_zero _).symm (setbacks_congr rfl ?_) rfl
          simp only [counted, joined, hforeman] at hle ⊢
          omega
      | @act i k d phase counters s hk hmove hsilent hworld hact =>
          obtain ⟨hworking, hcounters⟩ := Worker.act_counters hact hmove hworld
          refine hturn (if Worker.hasFailed { k with phase } then 1 else 0) 0 ?_ ?_ rfl
          · show t.counters + counters = _
            rw [hcounters]
            rfl
          · refine hpast.seen.setbacks_move hk hmove ?_ ?_ ?_
            · rfl
            · rfl
            · simp [hworking]
      | @report i k e phase desk counters hk hmove hoffer =>
          have hclerk := hserved.isOver_of_held (held_of_move hk hmove)
          refine hturn 0 0 ?_ ?_ ?_
          · rw [offer_counters hclerk hoffer]
            rfl
          · refine hpast.seen.setbacks_move hk hmove ?_ ?_ ?_
            · rfl
            · rfl
            · rw [Worker.hasFailed_report hmove, Nat.add_zero]
          · rw [Desk.offer_ledger hoffer]
            rfl
      | @enter now e rest hclerk hqueue =>
          refine hturn 0 _ ?_ rfl (Ledger.changes_enter _ _ _)
          show t.counters + _ = t.counters + (0 + _)
          rw [zero_add]
      | close => exact hturn 0 0 rfl rfl rfl
      | @store now row reply s hclerk hreply hreturns =>
          refine hturn 0 0 ?_ rfl rfl
          cases reply with
          | ok | fault => rfl
          | crash text => exact (hreturns text rfl).elim
      | @storeCrash now row text s hclerk hreply =>
          have hreturns := hlast (row, .crash text) (by simp [Deed.updates])
          exact (hreturns text rfl).elim

/-- **What a run that is over has counted**: what its calls add, the faults of its workers, and the
events that changed a row.  No event was dropped. -/
theorem Chronicle.counters_eq (h : Chronicle room (opened due capacity s) past r)
    (hstored : Stored past) (hfinished : r.foreman = .finished) :
    r.counters = ((Deed.calls (deeds past)).map Call.tick).sum +
      { campaignsFailed := r.workers.countP (·.hasFailed) + r.workers.countP (·.hasBroken)
        updatesApplied := r.desk.ledger.changes } := by
  have hcounted : r.counted = r.workers.length := by simp [counted, joined, hfinished]
  rw [h.counters_of_stored hstored, setbacks, hcounted, List.take_length]

/-- The events for a campaign settle how often its row was changed. -/
theorem Chronicle.changesOf_eq (hids : (due.map (·.id)).Nodup)
    (h : Chronicle room (opened due capacity s) past r) (hc : c ∈ due) :
    r.desk.ledger.changesOf c.id =
      c.timeless.changes (r.desk.ledger.events.filter (·.campaign = c.id)) := by
  induction h using Chronicle.transition_induction with
  | refl => rfl
  | @tail past t turn d u hpast _ hstep ih =>
      cases hstep with
      | @enter now e rest =>
          have hfollows := hpast.follows hids hc
          show (t.desk.ledger.enter now e).changesOf c.id = _
          rw [Ledger.changesOf_enter, ih, Ledger.events_enter, List.filter_append,
            Campaign.changes_append]
          by_cases hid : e.campaign = c.id
          · obtain ⟨row, hrow⟩ : ∃ row, t.desk.ledger.row? e.campaign = some row :=
              ⟨_, hid ▸ hfollows.row⟩
            have htimeless := hfollows.timeless_row
            rw [← hid, hrow, Option.map_some, Option.some.injEq] at htimeless
            rw [Ledger.entry_of_some hrow, Campaign.apply_changed, htimeless]
            simp [hid, Campaign.changes]
          · simp [hid, Campaign.changes]
      | reportBroken _ hoffer => exact (Desk.offer_ledger hoffer).symm ▸ ih
      | report _ _ hoffer => exact (Desk.offer_ledger hoffer).symm ▸ ih
      | _ => exact ih

/-- Only rows of due campaigns are changed. -/
theorem Chronicle.changesOf_eq_zero (h : Chronicle room (opened due capacity s) past r) {id : Uuid}
    (hid : id ∉ due.map (·.id)) : r.desk.ledger.changesOf id = 0 := by
  induction h using Chronicle.transition_induction with
  | refl => rfl
  | @tail past t turn d u hpast _ hstep ih =>
      cases hstep with
      | @enter now e rest =>
          show (t.desk.ledger.enter now e).changesOf id = 0
          rw [Ledger.changesOf_enter, ih]
          by_cases hother : e.campaign = id
          · rw [Ledger.entry_of_none (hother ▸ hpast.within.rows id hid)]
            rfl
          · simp [hother]
      | reportBroken _ hoffer => exact (Desk.offer_ledger hoffer).symm ▸ ih
      | report _ _ hoffer => exact (Desk.offer_ledger hoffer).symm ▸ ih
      | _ => exact ih

end Run

end Mailshot
