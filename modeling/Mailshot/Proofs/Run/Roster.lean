import Mathlib.Data.List.Basic
import Mailshot.Proofs.Run.Chronicle

/-!
# The roster of a run

Each due campaign has its place, and the worker at a place is the worker of that campaign.  Workers
share nothing: what is at a place follows the course of its own worker, whatever the others do.  The
foreman goes through the places in order, and what it has seen is what the workers came to.

* `Run.Chronicle.roster`: the workers and the waiting campaigns are the due ones, in order;
* `Run.Chronicle.course`: the deeds at a place are a course of its worker;
* `Run.Transition.worker_at`: what a turn makes of the worker at a place;
* `Run.Chronicle.kept_by_moves`: what moves keep holds of a worker from any state on;
* `Run.Chronicle.seen`: what the foreman has seen of the workers;
* `Run.Chronicle.ended_of_finished`: at the end every due campaign has a worker, which has ended.
-/

namespace Mailshot

/-- The fault that a worker leaves behind, where it failed, or broke in the task of this name. -/
def Worker.fault? (task : String) (k : Worker) : Option Fault :=
  match k.phase with
  | .ended (.failed cause) => some cause
  | .ended (.broken text) => some (Run.brokenFault k.campaign.id task text)
  | _ => none

/-- What the foreman has to report of a worker, where it broke in the task of this name. -/
def Worker.parting? (task : String) (k : Worker) : Option Event :=
  match k.phase with
  | .ended (.broken text) => some (Run.brokenEvent k.campaign.id task text)
  | _ => none

namespace Run

variable {σ : Type}

/-- The number of workers that the foreman has looked after. -/
def joined (r : Run σ) : Nat :=
  match r.foreman with
  | .starting => 0
  | .joining i => i
  | .reporting i _ _ => i
  | .closing | .finished => r.workers.length

/-- The fault that the worker at a place leaves behind. -/
def faultAt (room : Mailroom σ) (r : Run σ) (i : Nat) : Option Fault :=
  r.workers[i]?.bind (Worker.fault? (room.task i))

variable {room : Mailroom σ} {due : List Campaign} {capacity : Nat} {s : σ} {r : Run σ}
  {past : List (Turn × Deed)}

theorem faultAt_congr {t : Run σ} (hworkers : t.workers = r.workers) :
    t.faultAt room = r.faultAt room := by
  funext i
  rw [faultAt, faultAt, hworkers]

/-- A worker that moves on keeps its campaign and its place. -/
theorem map_campaign_set {workers : List Worker} {i : Nat} {k : Worker} {phase : Phase}
    (hk : workers[i]? = some k) :
    (workers.set i { k with phase }).map (·.campaign) = workers.map (·.campaign) := by
  apply List.ext_getElem?
  intro j
  by_cases hj : i = j
  · subst hj
    have hi : i < workers.length := (List.getElem?_eq_some_iff.mp hk).1
    rw [List.getElem?_map, List.getElem?_map, List.getElem?_set_self hi, hk]
    rfl
  · simp [hj]

/-- The workers and the campaigns without one are the due campaigns, in order. -/
theorem Chronicle.roster (h : Chronicle room (opened due capacity s) past r) :
    r.workers.map (·.campaign) ++ r.waiting = due := by
  induction h using Chronicle.transition_induction with
  | refl => rfl
  | tail _ _ hstep ih =>
      cases hstep with
      | spawn _ hwaiting => simpa [hwaiting] using ih
      | act hk => simpa only [map_campaign_set hk] using ih
      | report hk => simpa only [map_campaign_set hk] using ih
      | _ => exact ih

/-- The worker at a place is the worker of the campaign that is due there. -/
theorem Chronicle.due_at (h : Chronicle room (opened due capacity s) past r) {i : Nat} {k : Worker}
    (hk : r.workers[i]? = some k) : due[i]? = some k.campaign := by
  have hi : i < r.workers.length := (List.getElem?_eq_some_iff.mp hk).1
  rw [← h.roster, List.getElem?_append_left (by simpa using hi), List.getElem?_map, hk]
  rfl

/-- Campaigns at different places have different identifiers, where all due ones do. -/
theorem place_unique (hids : (due.map (·.id)).Nodup) {i j : Nat} {c d : Campaign}
    (hc : due[i]? = some c) (hd : due[j]? = some d) (hid : c.id = d.id) : i = j := by
  have hi : i < (due.map (·.id)).length := by
    simpa using (List.getElem?_eq_some_iff.mp hc).1
  exact (List.getElem?_inj hi hids).mp (by simp [hc, hd, hid])

/-- **Each worker follows its own course.**  The deeds at a place are those of its worker from the
start, and there are none before it starts. -/
theorem Chronicle.courses (h : Chronicle room (opened due capacity s) past r) (i : Nat) :
    (∀ k, r.workers[i]? = some k → Worker.Course room k.campaign (deedsOf i past) k.phase) ∧
      (r.workers.length ≤ i → deedsOf i past = []) := by
  induction h using Chronicle.transition_induction with
  | refl => simp [opened, deedsOf]
  | @tail past t turn d u _ _ hstep ih =>
      obtain ⟨hcourse, hidle⟩ := ih
      have hother : turn ≠ .worker i → deedsOf i (past ++ told turn d) = deedsOf i past := by
        intro hturn
        simp [hturn]
      have hmoved : ∀ {j : Nat} {k : Worker} {d : Deed} {phase : Phase},
          t.workers[j]? = some k → Worker.Move room k.campaign k.phase d phase →
          (∀ k', (t.workers.set j { k with phase })[i]? = some k' →
            Worker.Course room k'.campaign (deedsOf i (past ++ told (.worker j) (some d)))
              k'.phase) ∧
          ((t.workers.set j { k with phase }).length ≤ i →
            deedsOf i (past ++ told (.worker j) (some d)) = []) := by
        intro j k d phase hk hmove
        have hj : j < t.workers.length := (List.getElem?_eq_some_iff.mp hk).1
        by_cases hji : j = i
        · subst hji
          simp only [List.length_set, Nat.not_le.mpr hj, false_implies, and_true,
            List.getElem?_set_self hj, Option.some.injEq, forall_eq']
          simpa using (hcourse k hk).snoc hmove
        · simpa [List.getElem?_set_ne hji, hji] using And.intro hcourse hidle
      cases hstep with
      | @spawn c rest hforeman hwaiting hfree =>
          rw [hother (by simp)]
          refine ⟨?_, fun hi => hidle (by simp at hi; omega)⟩
          intro k hk
          rcases Nat.lt_trichotomy i t.workers.length with hi | hi | hi
          · exact hcourse k (by simpa [List.getElem?_append_left hi] using hk)
          · subst hi
            obtain rfl : { campaign := c } = k := by simpa using hk
            rw [hidle (Nat.le_refl _)]
            exact .nil
          · rw [List.getElem?_eq_none (by simp; omega)] at hk
            cases hk
      | act hk hmove => exact hmoved hk hmove
      | report hk hmove => exact hmoved hk hmove
      | _ => simpa only [hother (by simp)] using And.intro hcourse hidle

/-- The deeds at a place are a course of its worker. -/
theorem Chronicle.course (h : Chronicle room (opened due capacity s) past r) {i : Nat} {k : Worker}
    (hk : r.workers[i]? = some k) :
    Worker.Course room k.campaign (deedsOf i past) k.phase :=
  (h.courses i).1 k hk

/-- A turn is one of the worker at a place, which moves, or leaves that worker as it is. -/
theorem Transition.worker_at {r t : Run σ} {turn : Turn} {d : Option Deed} {i : Nat} {k : Worker}
    (h : Transition room r turn d t) (hk : r.workers[i]? = some k) :
    (turn ≠ .worker i ∧ t.workers[i]? = some k) ∨
      ∃ e phase, turn = .worker i ∧ d = some e ∧ Worker.Move room k.campaign k.phase e phase ∧
        t.workers[i]? = some { k with phase } := by
  have hi : i < r.workers.length := (List.getElem?_eq_some_iff.mp hk).1
  have hmoved : ∀ {j : Nat} {k' : Worker} {e : Deed} {phase : Phase}, r.workers[j]? = some k' →
      Worker.Move room k'.campaign k'.phase e phase →
      ((.worker j : Turn) ≠ .worker i ∧ (r.workers.set j { k' with phase })[i]? = some k) ∨
        ∃ e' phase', (.worker j : Turn) = .worker i ∧ some e = some e' ∧
          Worker.Move room k.campaign k.phase e' phase' ∧
          (r.workers.set j { k' with phase })[i]? = some { k with phase := phase' } := by
    intro j k' e phase hk' hmove
    by_cases hji : j = i
    · subst hji
      obtain rfl : k' = k := by simpa [hk] using hk'.symm
      exact Or.inr ⟨e, phase, rfl, rfl, hmove, List.getElem?_set_self hi⟩
    · exact Or.inl ⟨by simpa using hji, by rwa [List.getElem?_set_ne hji]⟩
  cases h with
  | act hk' hmove => exact hmoved hk' hmove
  | report hk' hmove => exact hmoved hk' hmove
  | spawn => exact Or.inl ⟨by simp, by rwa [List.getElem?_append_left hi]⟩
  | _ => exact Or.inl ⟨by simp, hk⟩

/-- **A worker goes on by its own moves.**  From any state of a run on, what the moves for its campaign
keep holds of the deeds at its place and of its phase, whatever the others do. -/
theorem Chronicle.kept_by_moves {r t : Run σ} {i : Nat} {c : Campaign} {p : Phase}
    {kept : List Deed → Phase → Prop} (hstart : kept [] p)
    (hmoves : ∀ {deeds p d q}, kept deeds p → Worker.Move room c p d q → kept (deeds ++ [d]) q)
    (h : Chronicle room r past t) (hk : r.workers[i]? = some ⟨c, p⟩) :
    ∃ q, t.workers[i]? = some ⟨c, q⟩ ∧ kept (deedsOf i past) q := by
  induction h using Chronicle.transition_induction with
  | refl => exact ⟨p, hk, hstart⟩
  | @tail past t turn d u _ _ hstep ih =>
      obtain ⟨q, hq, hkept⟩ := ih
      rcases hstep.worker_at hq with ⟨hother, hnext⟩ | ⟨e, phase, hown, hdeed, hmove, hnext⟩
      · exact ⟨q, hnext, by simpa [hother] using hkept⟩
      · exact ⟨phase, hnext, by simpa [hown, hdeed] using hmoves hkept hmove⟩

/-- What the foreman has seen of the workers. -/
structure Seen (room : Mailroom σ) (r : Run σ) : Prop where
  /-- Once the foreman looks after the workers, every campaign has one. -/
  waiting : r.foreman ≠ .starting → r.waiting = []
  joined_le : r.joined ≤ r.workers.length
  /-- The workers looked after have ended. -/
  ended : ∀ i k, i < r.joined → r.workers[i]? = some k → k.isOver = true
  faults : r.faults = ((List.range r.joined).filterMap (r.faultAt room)).reverse
  /-- A worker that is about to be reported broke. -/
  broken : ∀ i campaign text, r.foreman = .reporting i campaign text →
    ∃ k, r.workers[i]? = some k ∧ k.phase = .ended (.broken text) ∧ k.campaign.id = campaign

/-- A worker that can move has not ended. -/
theorem isOver_of_move {k : Worker} {d : Deed} {phase : Phase}
    (hmove : Worker.Move room k.campaign k.phase d phase) : k.isOver = false := by
  obtain ⟨c, p⟩ := k
  cases hmove <;> rfl

/-- Only a worker that has not ended takes turns. -/
theorem worker_of_step {i : Nat} {t : Run σ} (h : step room r (.worker i) = some t) :
    ∃ k, r.workers[i]? = some k ∧ k.isOver = false := by
  obtain ⟨d, htransition⟩ := exists_transition h
  cases htransition with
  | act hk hmove => exact ⟨_, hk, isOver_of_move hmove⟩
  | report hk hmove => exact ⟨_, hk, isOver_of_move hmove⟩

/-- A worker that moves is none that the foreman has looked after. -/
theorem Seen.joined_le_of_move (h : Seen room r) {i : Nat} {k : Worker} {d : Deed} {phase : Phase}
    (hk : r.workers[i]? = some k) (hmove : Worker.Move room k.campaign k.phase d phase) :
    r.joined ≤ i := by
  by_contra hi
  have hover := h.ended i k (by omega) hk
  rw [isOver_of_move hmove] at hover
  cases hover

/-- What the foreman has seen stays so when a worker moves. -/
theorem Seen.move (h : Seen room r) {i : Nat} {k : Worker} {d : Deed} {phase : Phase} {t : Run σ}
    (hk : r.workers[i]? = some k) (hmove : Worker.Move room k.campaign k.phase d phase)
    (hworkers : t.workers = r.workers.set i { k with phase }) (hwaiting : t.waiting = r.waiting)
    (hforeman : t.foreman = r.foreman) (hfaults : t.faults = r.faults) : Seen room t := by
  have hjoined : t.joined = r.joined := by
    simp [joined, hforeman, hworkers]
  have hle := h.joined_le_of_move hk hmove
  have hsame : ∀ {j : Nat}, i ≠ j → t.workers[j]? = r.workers[j]? := by
    intro j hj
    rw [hworkers, List.getElem?_set_ne hj]
  refine ⟨?_, ?_, ?_, ?_, ?_⟩
  · simpa [hforeman, hwaiting] using h.waiting
  · simpa [hjoined, hworkers] using h.joined_le
  · intro j k' hj hk'
    rw [hjoined] at hj
    exact h.ended j k' hj (by rwa [hsame (by omega)] at hk')
  · rw [hfaults, hjoined, h.faults]
    refine congrArg List.reverse (List.filterMap_congr fun j hj => ?_)
    have hji : i ≠ j := by
      have := List.mem_range.mp hj
      omega
    rw [faultAt, faultAt, hsame hji]
  · intro j campaign text hreporting
    obtain ⟨k', hk', hphase, hid⟩ := h.broken j campaign text (by rwa [hforeman] at hreporting)
    have hij : i ≠ j := by
      rintro rfl
      obtain rfl : k = k' := by simpa [hk] using hk'
      rw [hphase] at hmove
      exact Worker.not_move_ended hmove
    exact ⟨k', by rwa [hsame hij], hphase, hid⟩

/-- What the foreman has seen grows by the next worker, once that has ended. -/
theorem Seen.join (h : Seen room r) {i : Nat} {k : Worker} {t : Run σ} (hjoined : r.joined = i)
    (hstarted : r.foreman ≠ .starting) (hk : r.workers[i]? = some k) (hover : k.isOver = true)
    (hforeman : t.foreman = .joining (i + 1)) (hworkers : t.workers = r.workers)
    (hwaiting : t.waiting = r.waiting)
    (hfaults : t.faults = (k.fault? (room.task i)).toList ++ r.faults) : Seen room t := by
  have hi : i < r.workers.length := (List.getElem?_eq_some_iff.mp hk).1
  have hnext : t.joined = i + 1 := by simp [joined, hforeman]
  refine ⟨fun _ => by rw [hwaiting]; exact h.waiting hstarted, ?_, ?_, ?_, ?_⟩
  · rw [hnext, hworkers]
    exact hi
  · intro j k' hj hk'
    rw [hnext] at hj
    rw [hworkers] at hk'
    by_cases hij : j = i
    · subst hij
      obtain rfl : k = k' := by simpa [hk] using hk'
      exact hover
    · exact h.ended j k' (by omega) hk'
  · have hlast : r.faultAt room i = k.fault? (room.task i) := by
      rw [faultAt, hk, Option.bind_some]
    rw [hnext, faultAt_congr hworkers, List.range_succ, List.filterMap_append, List.reverse_append,
      hfaults, h.faults, hjoined]
    cases hfault : k.fault? (room.task i) <;> simp [hlast, hfault]
  · simp [hforeman]

/-- What the foreman has seen stays so while it turns to something else. -/
theorem Seen.turn (h : Seen room r) {t : Run σ} (hwaiting : t.waiting = [])
    (hworkers : t.workers = r.workers) (hjoined : t.joined = r.joined) (hfaults : t.faults = r.faults)
    (hbroken : ∀ i campaign text, t.foreman = .reporting i campaign text →
      ∃ k, r.workers[i]? = some k ∧ k.phase = .ended (.broken text) ∧ k.campaign.id = campaign) :
    Seen room t where
  waiting _ := hwaiting
  joined_le := by rw [hjoined, hworkers]; exact h.joined_le
  ended := by rw [hjoined, hworkers]; exact h.ended
  faults := by rw [hjoined, hfaults, faultAt_congr hworkers]; exact h.faults
  broken := by rw [hworkers]; exact hbroken

/-- **The foreman's view.**  What the foreman has seen is what the workers came to. -/
theorem Chronicle.seen (h : Chronicle room (opened due capacity s) past r) : Seen room r := by
  induction h using Chronicle.transition_induction with
  | refl => exact ⟨by simp [opened], by simp [opened, joined], by simp [opened],
      by simp [opened, joined], by simp [opened]⟩
  | @tail past t turn d u _ _ hstep ih =>
      cases hstep with
      | spawn hforeman hwaiting _ =>
          refine ⟨?_, ?_, ?_, ?_, ?_⟩
          · simp [hforeman]
          · simp [joined, hforeman]
          · simp [joined, hforeman]
          · simpa [joined, hforeman] using ih.faults
          · simp [hforeman]
      | spawned hforeman hwaiting =>
          exact ih.turn hwaiting rfl (by simp [joined, hforeman]) rfl (by simp)
      | joinMailed hforeman hk hphase =>
          exact ih.join (by simp [joined, hforeman]) (by simp [hforeman]) hk
            (by simp [Worker.isOver, hphase]) rfl rfl rfl (by simp [Worker.fault?, hphase])
      | joinFailed hforeman hk hphase =>
          exact ih.join (by simp [joined, hforeman]) (by simp [hforeman]) hk
            (by simp [Worker.isOver, hphase]) rfl rfl rfl (by simp [Worker.fault?, hphase])
      | joinBroken hforeman hk hphase =>
          refine ih.turn (ih.waiting (by simp [hforeman])) rfl (by simp [joined, hforeman]) rfl ?_
          rintro j campaign text hreporting
          simp only [Foreman.reporting.injEq] at hreporting
          obtain ⟨rfl, rfl, rfl⟩ := hreporting
          exact ⟨_, hk, hphase, rfl⟩
      | reportBroken hforeman hoffer =>
          obtain ⟨k, hk, hphase, hid⟩ := ih.broken _ _ _ hforeman
          exact ih.join (by simp [joined, hforeman]) (by simp [hforeman]) hk
            (by simp [Worker.isOver, hphase]) rfl rfl rfl (by simp [Worker.fault?, hphase, hid])
      | @joinedAll i hforeman hnone =>
          have hi : i = t.workers.length := by
            have hle := ih.joined_le
            simp only [joined, hforeman] at hle
            exact Nat.le_antisymm hle (List.getElem?_eq_none_iff.mp hnone)
          exact ih.turn (ih.waiting (by simp [hforeman])) rfl (by simp [joined, hforeman, hi]) rfl
            (by simp)
      | finish hforeman =>
          exact ih.turn (ih.waiting (by simp [hforeman])) rfl (by simp [joined, hforeman]) rfl
            (by simp)
      | act hk hmove => exact ih.move hk hmove rfl rfl rfl rfl
      | report hk hmove => exact ih.move hk hmove rfl rfl rfl rfl
      | enter | close | store | storeCrash =>
          exact ⟨ih.waiting, ih.joined_le, ih.ended, ih.faults, ih.broken⟩

/-- At the end of a run every due campaign has a worker. -/
theorem Chronicle.roster_of_finished (h : Chronicle room (opened due capacity s) past r)
    (hfinished : r.foreman = .finished) : r.workers.map (·.campaign) = due := by
  have hwaiting : r.waiting = [] := h.seen.waiting (by simp [hfinished])
  simpa [hwaiting] using h.roster

/-- At the end of a run every worker has ended. -/
theorem Chronicle.ended_of_finished (h : Chronicle room (opened due capacity s) past r)
    (hfinished : r.foreman = .finished) {i : Nat} {c : Campaign} (hc : due[i]? = some c) :
    ∃ o, r.workers[i]? = some ⟨c, .ended o⟩ := by
  have hi : i < r.workers.length := by
    have := (List.getElem?_eq_some_iff.mp hc).1
    simpa [← h.roster_of_finished hfinished] using this
  obtain ⟨k, hk⟩ : ∃ k, r.workers[i]? = some k := ⟨_, List.getElem?_eq_getElem hi⟩
  have hdue := h.due_at hk
  have hover := h.seen.ended i k (by simpa [joined, hfinished] using hi) hk
  obtain ⟨c', p⟩ := k
  obtain rfl : c' = c := by simpa [hdue] using hc
  cases p with
  | ended o => exact ⟨o, hk⟩
  | _ => cases hover

end Run

end Mailshot
