import Mailshot.Dispatch
import Mailshot.Proofs.Rehearsal
import Mailshot.Proofs.Run.Ending
import Mailshot.Proofs.Run.Upshot

/-!
# The verdict of a dispatch

A dispatch comes back with what the question for due campaigns came back with, or with the trouble of
the first due campaign that came to any.  First means first in due order: whose trouble came first in
time does not matter.  The fault tells a worker that failed from one that broke.

* `Mailroom.Dispatched`: one dispatch, with any turns;
* `Mailroom.dispatched_dispatch`: the turns that are taken when the program runs are among them;
* `Worker.Mailed`, `Worker.Trouble`: what a worker may come to;
* `Mailroom.verdict_cases`: what a dispatch comes back with, and that it does.
-/

namespace Mailshot

/-- The worker of campaign `c` has mailed out everything with these deeds. -/
def Worker.Mailed {σ : Type} (room : Mailroom σ) (c : Campaign) (deeds : List Deed) : Prop :=
  ∃ summary, Course room c deeds (.ended (.mailed summary))

/-- The worker of campaign `c` has broken with these deeds. -/
def Worker.Broken {σ : Type} (room : Mailroom σ) (c : Campaign) (deeds : List Deed) : Prop :=
  ∃ text, Course room c deeds (.ended (.broken text))

/-- The trouble that the worker of campaign `c`, in the task of this name, came to with its last call:
a fault that the call raised, or a crash of the call. -/
inductive Worker.Trouble {σ : Type} (room : Mailroom σ) (c : Campaign) (task : String)
    (deeds : List Deed) : Fault → Prop where
  | failed {before : List Call} {made : Call} {source : Fault}
      (hcourse : Course room c deeds (.ended (.failed (source.forCampaign c.id))))
      (hcalls : Deed.calls deeds = before ++ [made])
      (hraised : raised? c before made = some source) : Trouble room c task deeds source
  | broken {before : List Call} {made : Call} {text : String}
      (hcourse : Course room c deeds (.ended (.broken text)))
      (hcalls : Deed.calls deeds = before ++ [made]) (hcrash : made.crash? = some text) :
      Trouble room c task deeds (.worker (Fault.brokenTask text task))

namespace Mailroom

variable {σ : Type}

/-- A dispatch that starts in state `s` of the world may do these deeds, come back with a verdict,
and leave the world in a state. -/
inductive Dispatched (room : Mailroom σ) (cutoff : Int) (s : σ) :
    List (Run.Turn × Deed) → Verdict → σ → Prop where
  | refused {cause : Fault} {t : σ} (hdue : room.world.due cutoff s = (.fault cause, t)) :
      Dispatched room cutoff s [] (.failed cause) t
  | crashed {text : String} {t : σ} (hdue : room.world.due cutoff s = (.crash text, t)) :
      Dispatched room cutoff s [] .broken t
  | idle {t : σ} (hdue : room.world.due cutoff s = (.ok [], t)) :
      Dispatched room cutoff s [] .ok t
  | unfit {due : List Campaign} {t : σ} (hdue : room.world.due cutoff s = (.ok due, t))
      (hsome : due ≠ []) (hunfit : room.admits due.length = false) :
      Dispatched room cutoff s [] .broken t
  | done {due : List Campaign} {t : σ} {past : List (Run.Turn × Deed)} {r : Run σ}
      (hdue : room.world.due cutoff s = (.ok due, t)) (hsome : due ≠ [])
      (hfit : room.admits due.length = true)
      (hrun : Run.Chronicle room (Run.start room due t) past r) (hfinished : r.foreman = .finished) :
      Dispatched room cutoff s past (r.firstFault.elim .ok .failed) r.world

/-- **The program dispatches.**  What it comes back with is what some turns lead to, unless its turns
run out. -/
theorem dispatched_dispatch (room : Mailroom σ) (cutoff : Int) (now : Instant) (s : σ)
    (hfinished : ∀ due t, room.world.due cutoff s = (.ok due, t) →
      (Run.play room now due t).1.foreman = .finished) :
    ∃ past, room.Dispatched cutoff s past (room.dispatch cutoff now s).1.verdict
      (room.dispatch cutoff now s).2 := by
  unfold dispatch
  cases hdue : room.world.due cutoff s with
  | mk reply t =>
      cases reply with
      | fault cause => exact ⟨[], .refused hdue⟩
      | crash text => exact ⟨[], .crashed hdue⟩
      | ok due =>
          cases due with
          | nil => exact ⟨[], .idle hdue⟩
          | cons c rest =>
              by_cases hfit : room.admits (c :: rest).length = true
              · obtain ⟨past, hpast⟩ := Run.chronicle_play room now (c :: rest) t
                simp only [hfit, if_true]
                exact ⟨past, .done hdue (by simp) hfit hpast (hfinished _ _ hdue)⟩
              · simp only [hfit]
                exact ⟨[], .unfit hdue (by simp) (by simpa using hfit)⟩

end Mailroom

namespace Worker

variable {σ : Type} {room : Mailroom σ} {c : Campaign} {task : String} {deeds : List Deed}
  {o : Outcome} {source : Fault}

/-- A worker that has ended without mailing out everything has come to trouble, and the foreman
blames that on its campaign. -/
theorem Course.trouble (h : Course room c deeds (.ended o)) (hnot : ¬ Mailed room c deeds) :
    ∃ source, Trouble room c task deeds source ∧
      fault? task ⟨c, .ended o⟩ = some (source.forCampaign c.id) := by
  cases o with
  | mailed summary => exact (hnot ⟨summary, h⟩).elim
  | failed cause =>
      obtain ⟨before, made, source, hcalls, hraised, rfl⟩ := h.of_failed
      exact ⟨source, .failed h hcalls hraised, rfl⟩
  | broken text =>
      obtain ⟨before, made, hcalls, hcrash⟩ := h.of_broken
      exact ⟨_, .broken h hcalls hcrash, rfl⟩

/-- The trouble of a worker ends its campaign exactly where the worker failed and did not break. -/
theorem Trouble.isUnrecoverable_iff (h : Trouble room c task deeds source) :
    source.isUnrecoverable = true ↔ ¬ Broken room c deeds := by
  cases h with
  | failed hcourse hcalls hraised =>
      refine iff_of_true (raised?_kind hraised).2 ?_
      rintro ⟨text, hbroken⟩
      cases hcourse.phase_unique hbroken
  | broken hcourse => exact iff_of_false (by simp [Fault.isUnrecoverable]) (not_not.mpr ⟨_, hcourse⟩)

end Worker

namespace Run

variable {σ : Type} {room : Mailroom σ} {due : List Campaign} {capacity : Nat} {s : σ} {r : Run σ}
  {past : List (Turn × Deed)}

/-- A worker that has mailed out everything leaves no fault behind. -/
theorem Chronicle.faultAt_of_mailed (h : Chronicle room (opened due capacity s) past r) {i : Nat}
    (hi : i < r.workers.length)
    (hmailed : ∀ c, due[i]? = some c → Worker.Mailed room c (deedsOf i past)) :
    r.faultAt room i = none := by
  have hk := List.getElem?_eq_getElem hi
  obtain ⟨summary, hcourse⟩ := hmailed _ (h.due_at hk)
  have hphase := (h.course hk).phase_unique hcourse
  rw [faultAt, hk, Option.bind_some, Worker.fault?, hphase]

/-- Where every worker has mailed out everything, a run has no fault. -/
theorem Chronicle.firstFault_eq_none (h : Chronicle room (opened due capacity s) past r)
    (hfinished : r.foreman = .finished)
    (hmailed : ∀ i c, due[i]? = some c → Worker.Mailed room c (deedsOf i past)) :
    r.firstFault = none := by
  rw [h.firstFault_eq hfinished, List.findSome?_eq_none_iff]
  intro i hi
  exact h.faultAt_of_mailed (List.mem_range.mp hi) (hmailed i)

/-- **The fault of a run** is the trouble of the first worker, in due order, that came to any. -/
theorem Chronicle.firstFault_eq_some (h : Chronicle room (opened due capacity s) past r)
    (hfinished : r.foreman = .finished) {i : Nat} {c : Campaign} (hc : due[i]? = some c)
    (hnot : ¬ Worker.Mailed room c (deedsOf i past))
    (hbefore : ∀ j d, j < i → due[j]? = some d → Worker.Mailed room d (deedsOf j past)) :
    ∃ source, Worker.Trouble room c (room.task i) (deedsOf i past) source ∧
      r.firstFault = some (source.forCampaign c.id) := by
  obtain ⟨o, hk⟩ := h.ended_of_finished hfinished hc
  obtain ⟨source, htrouble, hfault⟩ := Worker.Course.trouble (h.course hk) hnot
  have hi : i < r.workers.length := (List.getElem?_eq_some_iff.mp hk).1
  have hat : r.faultAt room i = some (source.forCampaign c.id) := by
    rw [faultAt, hk]
    exact hfault
  refine ⟨source, htrouble, h.firstFault_at hfinished hat fun j hj => ?_⟩
  exact h.faultAt_of_mailed (by omega) fun d hd => hbefore j d hj hd

end Run

namespace Mailroom

variable {σ : Type}

/-- A dispatch whose question for due campaigns is refused comes back with that. -/
theorem dispatched_refused {room : Mailroom σ} {cutoff : Int} {s t : σ} {cause : Fault}
    (hdue : room.world.due cutoff s = (.fault cause, t)) (past : List (Run.Turn × Deed))
    (v : Verdict) (u : σ) :
    room.Dispatched cutoff s past v u ↔ past = [] ∧ v = .failed cause ∧ u = t := by
  constructor
  · intro h
    cases h with
    | refused hdue' =>
        obtain ⟨hcause, rfl⟩ := Prod.mk.inj (hdue.symm.trans hdue')
        obtain rfl := Reply.fault.inj hcause
        exact ⟨rfl, rfl, rfl⟩
    | crashed hdue' | idle hdue' | unfit hdue' | done hdue' =>
        cases (Prod.mk.inj (hdue.symm.trans hdue')).1
  · rintro ⟨rfl, rfl, rfl⟩
    exact .refused hdue

/-- A dispatch of due campaigns that can be set up runs over them to the end, unless there are none. -/
theorem Dispatched.run_cases {room : Mailroom σ} {cutoff : Int} {s t u : σ} {due : List Campaign}
    {past : List (Run.Turn × Deed)} {v : Verdict} (h : room.Dispatched cutoff s past v u)
    (hdue : room.world.due cutoff s = (.ok due, t)) (hfit : room.admits due.length = true) :
    (due = [] ∧ past = [] ∧ v = .ok ∧ u = t) ∨
      ∃ r, Run.Chronicle room (Run.start room due t) past r ∧ r.foreman = .finished ∧
        v = r.firstFault.elim .ok .failed ∧ u = r.world := by
  cases h with
  | idle hdue' =>
      obtain ⟨hreply, rfl⟩ := Prod.mk.inj (hdue.symm.trans hdue')
      exact Or.inl ⟨Reply.ok.inj hreply, rfl, rfl, rfl⟩
  | unfit hdue' _ hunfit =>
      obtain ⟨hreply, -⟩ := Prod.mk.inj (hdue.symm.trans hdue')
      rw [Reply.ok.inj hreply, hunfit] at hfit
      cases hfit
  | done hdue' _ _ hrun hfinished =>
      obtain ⟨hreply, rfl⟩ := Prod.mk.inj (hdue.symm.trans hdue')
      obtain rfl := Reply.ok.inj hreply
      exact Or.inr ⟨_, hrun, hfinished, rfl, rfl⟩
  | refused hdue' | crashed hdue' => cases (Prod.mk.inj (hdue.symm.trans hdue')).1

/-- A dispatch of due campaigns comes back with what the run over them does. -/
theorem Dispatched.exists_run {room : Mailroom σ} {cutoff : Int} {s t u : σ} {due : List Campaign}
    {past : List (Run.Turn × Deed)} {v : Verdict} (h : room.Dispatched cutoff s past v u)
    (hdue : room.world.due cutoff s = (.ok due, t)) (hfit : room.admits due.length = true) :
    (due = [] ∧ v = .ok) ∨ ∃ r, Run.Chronicle room (Run.start room due t) past r ∧
      r.foreman = .finished ∧ v = r.firstFault.elim .ok .failed := by
  rcases h.run_cases hdue hfit with ⟨hnone, -, hv, -⟩ | ⟨r, hrun, hfinished, hv, -⟩
  · exact Or.inl ⟨hnone, hv⟩
  · exact Or.inr ⟨r, hrun, hfinished, hv⟩

/-- **What a dispatch comes back with.**  Where the question for due campaigns is refused, the fault
of that, and nothing is done.  Otherwise, where a run over the due campaigns can be set up: nothing
to complain of, where every worker has mailed out everything; else the trouble of the first campaign,
in due order, whose worker failed or broke, blamed on that campaign.  This ends the campaign exactly
where the worker did not break, for a worker fails for reasons of four kinds only, whatever the
faults are that its calls come back with.  A run can go on until it is over, and goes on forever only
by asking for pages of one campaign forever. -/
theorem verdict_cases (room : Mailroom σ) (cutoff : Int) (s : σ) :
    (∀ cause t, room.world.due cutoff s = (.fault cause, t) → ∀ past v u,
      room.Dispatched cutoff s past v u ↔ past = [] ∧ v = .failed cause ∧ u = t) ∧
    ∀ due t, room.world.due cutoff s = (.ok due, t) → room.admits due.length = true →
      (∀ past v u, room.Dispatched cutoff s past v u →
        ((∀ i c, due[i]? = some c → Worker.Mailed room c (Run.deedsOf i past)) → v = .ok) ∧
        (∀ i c, due[i]? = some c → ¬ Worker.Mailed room c (Run.deedsOf i past) →
          (∀ j d, j < i → due[j]? = some d → Worker.Mailed room d (Run.deedsOf j past)) →
          ∃ source, v = .failed (.campaignFailed c.id source) ∧
            Worker.Trouble room c (room.task i) (Run.deedsOf i past) source ∧
            ((Fault.campaignFailed c.id source).isUnrecoverable = true ↔
              ¬ Worker.Broken room c (Run.deedsOf i past))) ∧
        ∀ i c cause, due[i]? = some c →
          Worker.Course room c (Run.deedsOf i past) (.ended (.failed cause)) →
          ∃ source, cause = .campaignFailed c.id source ∧
            ((∃ id text, source = .tenantLookup id text) ∨
              (∃ text, source = .audienceResolution text) ∨
              (∃ text, source = .contentFetch text) ∨ ∃ text, source = .contentDecode text)) ∧
      (∀ past r, Run.Chronicle room (Run.start room due t) past r → r.foreman ≠ .finished →
        ∃ r', Run.Step room r r') ∧
      ∀ runs : Nat → Run σ, runs 0 = Run.start room due t →
        (∀ n, Run.Step room (runs n) (runs (n + 1))) →
        ∃ (i : Nat) (c : Campaign), due[i]? = some c ∧ ∀ most : Nat, ∃ n tenant, ∃ p : Pager,
          (runs n).workers[i]? = some (⟨c, .paging tenant p⟩ : Worker) ∧ most ≤ p.fetched := by
  refine ⟨fun cause t hdue => dispatched_refused hdue, ?_⟩
  intro due t hdue hfit
  refine ⟨?_, ?_, ?_⟩
  · intro past v u h
    refine ⟨?_, ?_, ?_⟩
    · intro hmailed
      rcases h.exists_run hdue hfit with ⟨-, rfl⟩ | ⟨r, hrun, hfinished, rfl⟩
      · rfl
      · rw [hrun.firstFault_eq_none hfinished hmailed]
        rfl
    · intro i c hc hnot hbefore
      rcases h.exists_run hdue hfit with ⟨rfl, -⟩ | ⟨r, hrun, hfinished, rfl⟩
      · cases hc
      · obtain ⟨source, htrouble, hfault⟩ := hrun.firstFault_eq_some hfinished hc hnot hbefore
        rw [hfault]
        exact ⟨source, rfl, htrouble, htrouble.isUnrecoverable_iff⟩
    · intro i c cause _ hcourse
      obtain ⟨before, made, source, -, hraised, rfl⟩ := hcourse.of_failed
      exact ⟨source, rfl, (Worker.raised?_kind hraised).1⟩
  · intro past r hrun hfinished
    obtain ⟨turn, hturn⟩ := hrun.enabled hfinished default
    obtain ⟨r', hstep⟩ := Option.isSome_iff_exists.mp hturn
    exact ⟨r', turn, hstep⟩
  · intro runs hstart hsteps
    exact Run.endless_pages hstart hsteps

end Mailroom

/-- The mailroom on a day when nobody can tell what is due. -/
def Season.shut : Mailroom Rehearsal :=
  { Season.wet with world := Script.world { due := some (.fault (.persistence "down")) } }

namespace Mailroom

/-- Storm is blamed, which broke, and not frost, which is due later and failed. -/
theorem verdict_cases_of_season :
    (Season.shut.Dispatched 0 { rows := [] } [] (.failed (.persistence "down")) { rows := [] }) ∧
      ∃ source, Verdict.failed (Run.brokenFault Season.storm.id "3" "out of paper") =
          .failed (.campaignFailed Season.storm.id source) ∧
        Worker.Trouble Season.wet Season.storm "3" (Run.deedsOf 1 Season.wetRun.1) source ∧
        ((Fault.campaignFailed Season.storm.id source).isUnrecoverable = true ↔
          ¬ Worker.Broken Season.wet Season.storm (Run.deedsOf 1 Season.wetRun.1)) := by
  constructor
  · have hdue : Season.shut.world.due 0 { rows := [] } =
        (.fault (.persistence "down"), { rows := [] }) := rfl
    obtain ⟨hrefused, -⟩ := verdict_cases Season.shut 0 { rows := [] }
    exact (hrefused _ _ hdue [] _ _).mpr ⟨rfl, rfl, rfl⟩
  · have hdue : Season.wet.world.due 0 { rows := Season.wetDue } =
        (.ok Season.wetDue, { rows := Season.wetDue }) := by decide +kernel
    have hfinished : Season.wetRun.2.foreman = .finished := by decide +kernel
    have hfault : Season.wetRun.2.firstFault =
        some (Run.brokenFault Season.storm.id "3" "out of paper") := by decide +kernel
    have hrun : Season.wet.Dispatched 0 { rows := Season.wetDue } Season.wetRun.1
        (Season.wetRun.2.firstFault.elim .ok .failed) Season.wetRun.2.world :=
      .done hdue (by decide) (by decide) Season.wetChronicle hfinished
    have hsummer : Season.wetRun.2.workers[0]? =
        some ⟨Season.summer, .ended (.mailed ⟨Season.summer.id, 3, 3, 1⟩)⟩ := by decide +kernel
    have hstorm : Season.wetRun.2.workers[1]? =
        some ⟨Season.storm, .ended (.broken "out of paper")⟩ := by decide +kernel
    obtain ⟨-, hcases⟩ := verdict_cases Season.wet 0 { rows := Season.wetDue }
    obtain ⟨hover, -⟩ := hcases _ _ hdue (by decide)
    obtain ⟨-, hblamed, -⟩ := hover _ _ _ hrun
    have htask : Season.wet.task 1 = "3" := by decide
    rw [hfault] at hblamed
    rw [← htask]
    refine hblamed 1 Season.storm rfl ?_ ?_
    · rintro ⟨summary, hmailed⟩
      have hbroken := Season.wetChronicle.course hstorm
      cases hbroken.phase_unique hmailed
    · intro j d hj hd
      obtain rfl : j = 0 := by omega
      obtain rfl : Season.summer = d := Option.some.inj hd
      exact ⟨_, Season.wetChronicle.course hsummer⟩

end Mailroom

end Mailshot
