import Mathlib.Algebra.Order.BigOperators.Group.Finset
import Mailshot.Proofs.Run.Desk

/-!
# No run gets stuck

Short of the end somebody can always go on: where a full queue blocks whoever brings an event, the
clerk has work, and a clerk who is gone blocks nobody.  Every turn uses up some of what is left to
do, so a run whose workers do a bounded number of deeds comes to its end, whoever takes turns.

* `Run.Chronicle.enabled`: somebody can go on;
* `Run.toDo`: what is left to do;
* `Run.Chronicle.finishes`: a run can be brought to its end.
-/

namespace Mailshot

namespace Run

variable {σ : Type} {room : Mailroom σ} {due : List Campaign} {capacity : Nat} {s : σ} {r : Run σ}
  {past : List (Turn × Deed)}

/-- There is room at the desk for one event at least. -/
theorem Chronicle.capacity_pos (h : Chronicle room (opened due capacity s) past r) :
    0 < r.desk.capacity := by
  induction h using Chronicle.transition_induction with
  | refl => simp [opened, Desk.opened]
  | tail _ _ hstep ih =>
      cases hstep with
      | reportBroken _ hoffer => exact (Desk.offer_frame hoffer).1 ▸ ih
      | report _ _ hoffer => exact (Desk.offer_frame hoffer).1 ▸ ih
      | _ => exact ih

/-- A worker that has not ended can go on, unless an event that it brings has to wait. -/
theorem worker_enabled {i : Nat} {k : Worker} (hk : r.workers[i]? = some k)
    (hbusy : k.isOver = false) (hoffer : ∀ e, (r.desk.offer e).isSome) :
    (step room r (.worker i)).isSome := by
  have hnext : (∃ e phase, k.report room = some (e, phase)) ∨ k.report room = none ∧
      ∃ phase counters t, k.act room r.world = some (phase, counters, t) :=
    Worker.report_or_act hbusy r.world
  rcases hnext with ⟨e, phase, hreport⟩ | ⟨hreport, phase, counters, u, hact⟩
  · simpa [step, workerStep, hk, hreport] using hoffer e
  · simp [step, workerStep, hk, hreport, hact]

/-- Once all workers have ended, the foreman can go on until it waits for the clerk. -/
theorem foreman_enabled (hbusy : r.busy = []) (hoffer : ∀ e, (r.desk.offer e).isSome)
    (hholds : r.foremanHolds = true) : (step room r .foreman).isSome := by
  unfold step foremanStep
  cases hforeman : r.foreman with
  | starting =>
      cases hwaiting : r.waiting with
      | nil => simp
      | cons c rest => simp [hbusy, DispatchSettings.concurrency]
  | joining i =>
      cases hk : r.workers[i]? with
      | none => simp [hk]
      | some k =>
          have hover : k.isOver = true := by
            by_contra hnot
            have hmem : k ∈ r.busy :=
              List.mem_filter.mpr ⟨List.mem_of_getElem? hk, by simpa using hnot⟩
            simp [hbusy] at hmem
          obtain ⟨c, p⟩ := k
          cases p with
          | ended o => cases o <;> simp [hk]
          | _ => cases hover
  | reporting i campaign text => simpa using hoffer (brokenEvent campaign (room.task i) text)
  | closing | finished => simp [foremanHolds, hforeman] at hholds

/-- Somebody other than the clerk can go on where there is room at the desk, or else the foreman
waits for the clerk or is done. -/
theorem enabled_of_room (hoffer : ∀ e, (r.desk.offer e).isSome) :
    (∃ turn, (step room r turn).isSome) ∨ r.held = false := by
  cases hbusy : r.busy with
  | nil =>
      cases hholds : r.foremanHolds with
      | true => exact Or.inl ⟨.foreman, foreman_enabled hbusy hoffer hholds⟩
      | false => exact Or.inr (by simp [held, hholds, hbusy])
  | cons k rest =>
      have hmem : k ∈ r.busy := by simp [hbusy]
      obtain ⟨hworker, hover⟩ := List.mem_filter.mp hmem
      obtain ⟨i, hk⟩ := List.mem_iff_getElem?.mp hworker
      exact Or.inl ⟨.worker i, worker_enabled hk (by simpa using hover) hoffer⟩

/-- **Somebody can go on**, until the run is over. -/
theorem Chronicle.enabled (h : Chronicle room (opened due capacity s) past r)
    (hfinished : r.foreman ≠ .finished) (now : Instant) :
    ∃ turn, (step room r turn).isSome := by
  -- a clerk with work can do it; otherwise there is room at the desk, or nobody to wait for
  have hfinish : r.desk.isOver = true → r.held = false → (step room r .foreman).isSome := by
    intro hover hheld
    have hclosing : r.foreman = .closing := by
      cases hforeman : r.foreman with
      | closing => rfl
      | finished => exact (hfinished hforeman).elim
      | _ => simp [held, foremanHolds, hforeman] at hheld
    simp [step, foremanStep, hclosing, hover]
  cases hclerk : r.desk.clerk with
  | storing row =>
      refine ⟨.clerk now, ?_⟩
      simp only [step, clerkStep, Desk.work, hclerk, Option.isSome_map]
      split <;> rfl
  | waiting =>
      cases hqueue : r.desk.queue with
      | cons e rest =>
          exact ⟨.clerk now, by simp [step, clerkStep, Desk.work, hclerk, hqueue]⟩
      | nil =>
          have hroom : ∀ e, (r.desk.offer e).isSome := by
            simp [Desk.offer, Desk.isOver, hclerk, hqueue, h.capacity_pos]
          have hnext : (∃ turn, (step room r turn).isSome) ∨ r.held = false :=
            enabled_of_room hroom
          rcases hnext with henabled | hheld
          · exact henabled
          · exact ⟨.clerk now, by simp [step, clerkStep, Desk.work, hclerk, hqueue, hheld]⟩
  | closed | broken =>
      have hover : r.desk.isOver = true := by simp [Desk.isOver, hclerk]
      have hroom : ∀ e, (r.desk.offer e).isSome := by simp [Desk.offer, hover]
      have hnext : (∃ turn, (step room r turn).isSome) ∨ r.held = false := enabled_of_room hroom
      rcases hnext with henabled | hheld
      · exact henabled
      · exact ⟨.foreman, hfinish hover hheld⟩

/-- The turns that a clerk has left before it looks at the queue again. -/
def clerkRank : Clerk → Nat
  | .waiting => 1
  | .storing _ => 2
  | .closed | .broken _ => 0

/-- What the foreman has left to do over `n` campaigns.  Looking after a worker may bring an event,
which counts twice in the queue. -/
def foremanRank (n : Nat) (r : Run σ) : Nat :=
  match r.foreman with
  | .starting => r.waiting.length + (4 * n + 3)
  | .joining i => 4 * (n - i) + 2
  | .reporting i _ _ => 4 * (n - i) + 1
  | .closing => 1
  | .finished => 0

/-- The deeds that the first `n` workers have left to do, of the number that each may do. -/
def deedsLeft (most : Nat → Nat) (n : Nat) (past : List (Turn × Deed)) : Nat :=
  ∑ i ∈ Finset.range n, (most i - (deedsOf i past).length)

/-- **What is left to do** in a run over `n` campaigns whose workers do so many deeds at most. -/
def toDo (most : Nat → Nat) (n : Nat) (past : List (Turn × Deed)) (r : Run σ) : Nat :=
  4 * deedsLeft most n past + 2 * r.desk.queue.length + clerkRank r.desk.clerk + foremanRank n r

theorem clerkRank_afterEntry_le (e : Entry) : clerkRank (Desk.afterEntry e) ≤ 2 := by
  cases hrow : e.row <;> simp [Desk.afterEntry, hrow, clerkRank]

/-- The turns of others leave a worker as much to do as before. -/
theorem deedsLeft_told {most : Nat → Nat} {n : Nat} {turn : Turn} {d : Option Deed}
    (hturn : ∀ i, turn ≠ .worker i) :
    deedsLeft most n (past ++ told turn d) = deedsLeft most n past := by
  simp [deedsLeft, hturn]

/-- A deed is one deed less to do. -/
theorem deedsLeft_lt {most : Nat → Nat} {n i : Nat} {d : Deed} (hi : i < n)
    (hmost : (deedsOf i (past ++ told (.worker i) (some d))).length ≤ most i) :
    deedsLeft most n (past ++ told (.worker i) (some d)) < deedsLeft most n past := by
  refine Finset.sum_lt_sum ?_ ⟨i, Finset.mem_range.mpr hi, ?_⟩
  · intro j _
    simp only [deedsOf_append, List.length_append]
    omega
  · simp only [deedsOf_append, deedsOf_told, if_true, Option.toList_some, List.length_append,
      List.length_singleton] at hmost ⊢
    omega

/-- **Every turn uses up some of what is left to do.** -/
theorem Chronicle.toDo_lt {most : Nat → Nat} {turn : Turn} {d : Option Deed} {t : Run σ}
    (h : Chronicle room (opened due capacity s) past r) (hstep : Transition room r turn d t)
    (hmost : ∀ i, (deedsOf i (past ++ told turn d)).length ≤ most i) :
    toDo most due.length (past ++ told turn d) t < toDo most due.length past r := by
  have hplaces : r.workers.length ≤ due.length := by
    have hlength := congrArg List.length h.roster
    simp at hlength
    omega
  have hplace : ∀ {i : Nat} {k : Worker}, r.workers[i]? = some k → i < due.length := by
    intro i k hk
    have := (List.getElem?_eq_some_iff.mp hk).1
    omega
  cases hstep with
  | spawn hforeman hwaiting =>
      simp [toDo, deedsLeft_told, foremanRank, hforeman, hwaiting]
  | spawned hforeman hwaiting =>
      simp [toDo, deedsLeft_told, foremanRank, hforeman, hwaiting]
  | joinMailed hforeman hk | joinFailed hforeman hk | joinBroken hforeman hk =>
      have hi := hplace hk
      simp only [toDo, foremanRank, hforeman]
      rw [deedsLeft_told (by simp)]
      omega
  | reportBroken hforeman hoffer =>
      obtain ⟨k, hk, -⟩ := h.seen.broken _ _ _ hforeman
      have hi := hplace hk
      obtain ⟨-, hclerk, hqueue⟩ := Desk.offer_frame hoffer
      simp only [toDo, foremanRank, hforeman, hclerk]
      rw [deedsLeft_told (by simp)]
      omega
  | joinedAll hforeman =>
      simp only [toDo, foremanRank, hforeman]
      rw [deedsLeft_told (by simp)]
      omega
  | finish hforeman =>
      simp only [toDo, foremanRank, hforeman]
      rw [deedsLeft_told (by simp)]
      omega
  | @act i k d phase counters s hk =>
      have hless := deedsLeft_lt (hplace hk) (hmost i)
      simp only [toDo, foremanRank]
      omega
  | @report i k e phase desk counters hk hmove hoffer =>
      have hless := deedsLeft_lt (hplace hk) (hmost i)
      obtain ⟨-, hclerk, hqueue⟩ := Desk.offer_frame hoffer
      simp only [toDo, foremanRank, hclerk]
      omega
  | @enter now e rest hclerk hqueue =>
      have hrank := clerkRank_afterEntry_le (r.desk.ledger.entry now e)
      have hwaiting : clerkRank .waiting = 1 := rfl
      simp only [toDo, foremanRank, hclerk, hqueue, List.length_cons, hwaiting]
      rw [deedsLeft_told (by simp)]
      omega
  | close hclerk | store hclerk | storeCrash hclerk =>
      simp only [toDo, foremanRank, hclerk, clerkRank, List.length_nil]
      rw [deedsLeft_told (by simp)]
      omega

/-- **A run can be brought to its end** where its workers do a bounded number of deeds. -/
theorem Chronicle.finishes {most : Nat → Nat}
    (hmost : ∀ past r, Chronicle room (opened due capacity s) past r →
      ∀ i, (deedsOf i past).length ≤ most i)
    (h : Chronicle room (opened due capacity s) past r) :
    ∃ past t, Chronicle room (opened due capacity s) past t ∧ t.foreman = .finished := by
  induction hleft : toDo most due.length past r using Nat.strong_induction_on
    generalizing past r with
  | _ left ih =>
      by_cases hfinished : r.foreman = .finished
      · exact ⟨past, r, h, hfinished⟩
      · obtain ⟨turn, hturn⟩ := h.enabled hfinished default
        obtain ⟨t, hstep⟩ := Option.isSome_iff_exists.mp hturn
        have hnext := h.tail hstep
        have hless := h.toDo_lt (step_transition hstep) (hmost _ _ hnext)
        exact ih _ (hleft ▸ hless) hnext rfl

end Run

end Mailshot
