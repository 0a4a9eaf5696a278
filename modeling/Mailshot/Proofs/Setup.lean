import Mailshot.Proofs.Verdict
import Mailshot.Settings.Load

/-!
# Setting up a run

Before anything is mailed out, a dispatch sets up the desk and the places for workers.  Neither can be
set up beyond a limit: a dispatch over it breaks off with nothing done, and the due campaigns stay as
they are.  The settings are taken with lower bounds, and the room at the desk stops at the greatest
count, so both are one at least.  But that count is itself beyond the limit, and settings that can be
loaded lead there.

* `Mailroom.admits_iff`: the settings with which a run can be set up;
* `Mailroom.broken_iff_unfit`: with due campaigns a dispatch breaks off exactly where it cannot be set
  up, and otherwise every due campaign is worked through;
* `Mailroom.not_always_fit`: not all settings that can be loaded let a run be set up.
-/

namespace Mailshot

namespace Mailroom

variable {σ : Type} {room : Mailroom σ} {cutoff : Int} {s t : σ} {due : List Campaign}

/-- **The settings with which a run can be set up.**  The lower bounds never matter. -/
theorem admits_iff (room : Mailroom σ) (campaigns : Nat) :
    room.admits campaigns = true ↔
      campaigns * room.settings.eventBufferPerCampaign ≤ slotLimit ∧
        room.settings.maxConcurrency ≤ slotLimit := by
  rw [admits, Bool.and_eq_true, decide_eq_true_iff, decide_eq_true_iff]
  simp only [DispatchSettings.eventBuffer, DispatchSettings.concurrency, Share.limit, slotLimit]
  omega

/-- A dispatch that cannot be set up breaks off with nothing done. -/
theorem dispatched_unfit (hdue : room.world.due cutoff s = (.ok due, t)) (hsome : due ≠ [])
    (hunfit : room.admits due.length = false) (past : List (Run.Turn × Deed)) (v : Verdict) (u : σ) :
    room.Dispatched cutoff s past v u ↔ past = [] ∧ v = .broken ∧ u = t := by
  constructor
  · intro h
    cases h with
    | unfit hdue' =>
        obtain ⟨-, rfl⟩ := Prod.mk.inj (hdue.symm.trans hdue')
        exact ⟨rfl, rfl, rfl⟩
    | idle hdue' =>
        obtain ⟨hreply, -⟩ := Prod.mk.inj (hdue.symm.trans hdue')
        exact (hsome (Reply.ok.inj hreply)).elim
    | done hdue' _ hfit =>
        obtain ⟨hreply, -⟩ := Prod.mk.inj (hdue.symm.trans hdue')
        rw [← Reply.ok.inj hreply, hunfit] at hfit
        cases hfit
    | refused hdue' | crashed hdue' => cases (Prod.mk.inj (hdue.symm.trans hdue')).1
  · rintro ⟨rfl, rfl, rfl⟩
    exact .unfit hdue hsome hunfit

/-- The program tells whether its run could be set up. -/
theorem dispatch_broken_iff (hdue : room.world.due cutoff s = (.ok due, t)) (hsome : due ≠ [])
    (now : Instant) :
    (room.dispatch cutoff now s).1.verdict = .broken ↔ room.admits due.length = false := by
  obtain ⟨c, rest, rfl⟩ := List.exists_cons_of_ne_nil hsome
  cases hfit : room.admits (c :: rest).length with
  | false => simp only [dispatch, hdue, hfit, Bool.false_eq_true, if_false]
  | true =>
      simp only [dispatch, hdue, hfit, if_true, report]
      cases (Run.play room now (c :: rest) t).1.firstFault <;> simp

/-- **A dispatch of due campaigns breaks off exactly where it cannot be set up**, and then nothing is
done.  Otherwise the worker of every due campaign is followed to its end.  There is always room for one
event and one worker, so only the upper limits matter. -/
theorem broken_iff_unfit (hdue : room.world.due cutoff s = (.ok due, t)) (hsome : due ≠ []) :
    (1 ≤ room.settings.eventBuffer due.length ∧ 1 ≤ room.settings.concurrency) ∧
      (room.admits due.length = true ↔
        due.length * room.settings.eventBufferPerCampaign ≤ slotLimit ∧
          room.settings.maxConcurrency ≤ slotLimit) ∧
      (∀ past v u, room.Dispatched cutoff s past v u →
        (v = .broken ↔ room.admits due.length = false) ∧
        (v = .broken → past = [] ∧ u = t) ∧
        (v ≠ .broken → ∀ i c, due[i]? = some c →
          ∃ o, Worker.Course room c (Run.deedsOf i past) (.ended o))) ∧
      ∀ now, (room.dispatch cutoff now s).1.verdict = .broken ↔ room.admits due.length = false := by
  refine ⟨⟨Nat.le_max_right _ _, Nat.le_max_right _ _⟩, admits_iff room due.length, ?_,
    dispatch_broken_iff hdue hsome⟩
  intro past v u h
  cases hfit : room.admits due.length with
  | false =>
      obtain ⟨rfl, rfl, rfl⟩ := (dispatched_unfit hdue hsome hfit past v u).mp h
      exact ⟨by simp, fun _ => ⟨rfl, rfl⟩, fun hnot => (hnot rfl).elim⟩
  | true =>
      obtain ⟨hnone, -⟩ | ⟨r, hrun, hfinished, rfl⟩ := h.exists_run hdue hfit
      · exact (hsome hnone).elim
      · have hsound : r.firstFault.elim Verdict.ok .failed ≠ .broken := by
          cases r.firstFault <;> simp
        refine ⟨by simp [hsound], fun hbroken => (hsound hbroken).elim, fun _ i c hc => ?_⟩
        obtain ⟨o, hk⟩ := hrun.ended_of_finished hfinished hc
        exact ⟨o, hrun.course hk⟩

end Mailroom

namespace Season

/-- A file that asks for all the room that can be written down. -/
def floodFile : SettingsFile where
  name := "flood.toml"
  text := "[dispatch]\nevent_buffer_per_campaign = 9223372036854775807\n"

/-- The settings in that file. -/
def flood : Settings where
  dispatch := { eventBufferPerCampaign := 9223372036854775807 }

theorem load_floodFile : Settings.load (some floodFile) [] = .ok flood := by
  have hload : (Settings.load (some floodFile) []).toOption = some flood := by decide +kernel
  cases hloaded : Settings.load (some floodFile) [] with
  | error flaw => simp [hloaded, Except.toOption] at hload
  | ok loaded => simpa [hloaded, Except.toOption] using hload

/-- The mailroom with those settings. -/
def flooded : Mailroom Rehearsal where
  world := common.world
  settings := flood.dispatch
  sender := "room@example.com"

theorem due_flooded : flooded.world.due 0 { rows := [summer] } =
    (.ok [summer], { rows := [summer] }) := by decide +kernel

end Season

namespace Mailroom

/-- Summer is due, and with room for more events than may wait the dispatch breaks off. -/
theorem broken_iff_unfit_of_flood :
    [Season.summer] ≠ [] ∧
      Season.flooded.world.due 0 { rows := [Season.summer] } =
        (.ok [Season.summer], { rows := [Season.summer] }) ∧
      (Season.flooded.dispatch 0 Sample.now { rows := [Season.summer] }).1.verdict = .broken := by
  have hsome : [Season.summer] ≠ [] := List.cons_ne_nil _ _
  obtain ⟨-, -, -, hbroken⟩ := broken_iff_unfit Season.due_flooded hsome
  exact ⟨hsome, Season.due_flooded, (hbroken _).mpr (by decide)⟩

/-- **Not all settings that can be loaded let a run be set up**: the room at the desk and the number of
workers are not always within the limit. -/
theorem not_always_fit :
    ¬ ∀ (σ : Type) (file : Option SettingsFile) (vars : List (String × String)) (settings : Settings)
        (room : Mailroom σ) (cutoff : Int) (s t : σ) (due : List Campaign),
      Settings.load file vars = .ok settings → room.settings = settings.dispatch →
      room.world.due cutoff s = (.ok due, t) → due ≠ [] →
      (1 ≤ room.settings.eventBuffer due.length ∧
        room.settings.eventBuffer due.length ≤ slotLimit) ∧
      1 ≤ room.settings.concurrency ∧ room.settings.concurrency ≤ slotLimit := by
  intro hall
  have hfit := hall Rehearsal (some Season.floodFile) [] Season.flood Season.flooded 0 _ _ _
    Season.load_floodFile rfl Season.due_flooded (List.cons_ne_nil _ _)
  -- the greatest count that the file format knows is four times the limit
  exact absurd hfit.1.2 (by decide)

end Mailroom

end Mailshot
