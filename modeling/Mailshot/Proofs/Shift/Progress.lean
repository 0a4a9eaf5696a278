import Mailshot.Proofs.Run.Progress
import Mailshot.Proofs.Shift.Account

/-!
# No shift gets stuck

Whoever has ended can give back everything, and nothing else changes by it.  Once all who have ended
have done so, badges and keys are as in a run without an account, where somebody can go on.  So short
of the end somebody can go on in every shift, and every run is the run of some shift.

* `Shift.settles`: a shift can be brought to where all who have ended have given back everything;
* `Shift.Settled.step`: from there it goes on as its run does;
* `Shift.reach_iff`: runs are the runs of shifts;
* `Shift.Reach.never_stuck`: somebody can go on, and what is left over at the end is nothing.
-/

namespace Mailshot

/-- A clerk at a desk without room for an event has work, whoever holds the desk. -/
theorem Desk.work_of_full {σ : Type} {w : World σ} {d : Desk} {e : Event} (hcapacity : 0 < d.capacity)
    (hfull : d.offer e = none) (now : Instant) (held : Bool) (s : σ) :
    (d.work w now held s).isSome := by
  unfold Desk.offer at hfull
  cases hclerk : d.clerk with
  | waiting =>
      cases hqueue : d.queue with
      | nil => simp [isOver, hclerk, hqueue, hcapacity] at hfull
      | cons e rest => simp [work, hclerk, hqueue]
  | storing row =>
      simp only [work, hclerk]
      split <;> rfl
  | closed | broken => simp [isOver, hclerk] at hfull

namespace Shift

variable {σ : Type} {room : Mailroom σ} {h g f : Shift σ} {due : List Campaign} {capacity : Nat}
  {s : σ}

theorem Reach.trans (hreach : Reach room h g) (hmore : Reach room g f) : Reach room h f := by
  induction hmore with
  | refl => exact hreach
  | tail _ hstep ih => exact ih.tail hstep

/-- Everyone who has ended has given back everything. -/
def Settled (h : Shift σ) : Prop :=
  ∀ (i : Nat) (k : Worker) (p : Pass), h.run.workers[i]? = some k → h.passes[i]? = some p →
    k.isOver = true → p.badge = false

/-- **Whoever has ended can give something back**, until it has given back everything. -/
theorem give (room : Mailroom σ) {i : Nat} {k : Worker} {p : Pass}
    (hk : h.run.workers[i]? = some k) (hp : h.passes[i]? = some p) (hover : k.isOver = true)
    (hbadge : p.badge = true) :
    ∃ g, step room h (.worker i) = some g ∧ g.run = h.run ∧
      g.handed + g.inside < h.handed + h.inside := by
  cases hkeys : p.keys with
  | succ keys =>
      refine ⟨{ h with keys := h.keys - 1, passes := h.passes.set i { p with keys } }, ?_, rfl, ?_⟩
      · simp only [step, workerStep, hk, hp, hover, hkeys, if_true]
      · have hsum := sum_map_set (y := { p with keys }) (·.keys) hp
        have hcount := countP_set_add (y := { p with keys }) (·.badge) hp
        simp only [handed, inside] at hsum hcount ⊢
        omega
  | zero =>
      refine ⟨{ h with badges := h.badges + 1, passes := h.passes.set i { p with badge := false } },
        ?_, rfl, ?_⟩
      · simp only [step, workerStep, hk, hp, hover, hkeys, hbadge, if_true]
      · have hsum := sum_map_set (y := { p with badge := false }) (·.keys) hp
        have hcount := countP_set_add (y := { p with badge := false }) (·.badge) hp
        simp only [hbadge, Bool.toNat_true, Bool.toNat_false] at hcount
        simp only [handed, inside] at hsum hcount ⊢
        omega

theorem exists_give (hsettled : ¬ Settled h) : ∃ (i : Nat) (k : Worker) (p : Pass),
    h.run.workers[i]? = some k ∧ h.passes[i]? = some p ∧ k.isOver = true ∧ p.badge = true := by
  simpa only [Settled, not_forall, exists_prop, Bool.not_eq_false] using hsettled

/-- **A shift settles.**  All who have ended can give back everything, and the run stays as it is. -/
theorem settles (room : Mailroom σ) (h : Shift σ) :
    ∃ g, Reach room h g ∧ Settled g ∧ g.run = h.run := by
  -- what workers have in their hands gets less with all that they give back
  induction hleft : h.handed + h.inside using Nat.strong_induction_on generalizing h with
  | _ left ih =>
      by_cases hsettled : Settled h
      · exact ⟨h, .refl, hsettled, rfl⟩
      · obtain ⟨i, k, p, hk, hp, hover, hbadge⟩ := exists_give hsettled
        obtain ⟨g, hstep, hrun, hless⟩ := give room hk hp hover hbadge
        obtain ⟨f, hreach, hdone, hsame⟩ := ih _ (hleft ▸ hless) g rfl
        exact ⟨f, (Reach.refl.tail ⟨_, hstep⟩).trans hreach, hdone, hsame.trans hrun⟩

/-- A worker goes on as in the run of the shift. -/
theorem Kept.workerStep (kept : Kept room h) {i : Nat} {r : Run σ}
    (hrun : Run.step room h.run (.worker i) = some r) :
    ∃ g, step room h (.worker i) = some g ∧ g.run = r := by
  obtain ⟨k, hk, hbusy⟩ := Run.worker_of_step hrun
  obtain ⟨p, hp⟩ := kept.pass hk
  have hworker : Run.workerStep room h.run i = some r := hrun
  simp only [step, Shift.workerStep, hk, hp, hbusy, Bool.false_eq_true, if_false, hworker]
  exact ⟨_, rfl, rfl⟩

namespace Settled

/-- Only workers at work have a badge. -/
theorem inside_le (hsettled : Settled h) (kept : Kept room h) : h.inside ≤ h.run.busy.length := by
  have hmatch : List.Forall₂ (fun p k => p.badge = true → k.isOver = false) h.passes
      h.run.workers := by
    refine forall₂_of_getElem? kept.length_eq.symm fun i p k hp hk hbadge => ?_
    by_contra hover
    simp [hsettled i k p hk hp (by simpa using hover)] at hbadge
  rw [Run.busy, ← List.countP_eq_length_filter, inside]
  exact countP_le_of_forall₂ hmatch fun p k hfits hbadge => by simp [hfits hbadge]

/-- A key is out only where somebody may bring an event. -/
theorem held_of_keys (hsettled : Settled h) (kept : Kept room h) (hkeys : 0 < h.keys) :
    h.run.held = true := by
  by_contra hheld
  obtain ⟨hholds, hbusy⟩ : h.run.foremanHolds = false ∧ h.run.busy = [] := by
    simpa [Run.held] using hheld
  have hinside : h.inside = 0 := by
    have hle := hsettled.inside_le kept
    rw [hbusy] at hle
    exact Nat.le_zero.mp hle
  rw [kept.keys, hholds, kept.handed_eq_zero hinside] at hkeys
  cases hkeys

theorem foremanStep (hsettled : Settled h) (kept : Kept room h) {r : Run σ}
    (hrun : Run.foremanStep room h.run = some r) :
    ∃ g, Shift.foremanStep room h = some g ∧ g.run = r := by
  cases hforeman : h.run.foreman with
  | starting =>
      cases hwaiting : h.run.waiting with
      | nil =>
          simp only [Run.foremanStep, hforeman, hwaiting, Option.some.injEq] at hrun
          simp only [Shift.foremanStep, hforeman, hwaiting]
          exact ⟨_, rfl, hrun⟩
      | cons c rest =>
          by_cases hfree : h.run.busy.length < room.settings.concurrency <;>
            simp only [Run.foremanStep, hforeman, hwaiting, hfree, if_true, if_false,
              Option.some.injEq, reduceCtorEq] at hrun
          -- a place that is free has its badge left
          have hbadges := kept.badges
          have hinside := hsettled.inside_le kept
          obtain ⟨badges, hleft⟩ : ∃ badges, h.badges = badges + 1 :=
            Nat.exists_eq_succ_of_ne_zero (by omega)
          simp only [Shift.foremanStep, hforeman, hwaiting, hleft]
          exact ⟨_, rfl, hrun⟩
  | joining i =>
      cases hp : h.passes[i]? with
      | none =>
          have hk : h.run.workers[i]? = none := by
            rw [List.getElem?_eq_none_iff, kept.length_eq]
            exact List.getElem?_eq_none_iff.mp hp
          simp only [Run.foremanStep, hforeman, hk, Option.some.injEq] at hrun
          simp only [Shift.foremanStep, hforeman, hp]
          exact ⟨_, rfl, hrun⟩
      | some p =>
          obtain ⟨k, hk⟩ := kept.worker hp
          -- the foreman waits for a worker that has not ended, and has given back its badge if it has
          have hover : k.isOver = true := by
            obtain ⟨c, phase⟩ := k
            cases phase with
            | ended o => rfl
            | _ => simp [Run.foremanStep, hforeman, hk] at hrun
          have hbadge := hsettled i k p hk hp hover
          simp only [Shift.foremanStep, hforeman, hp, hbadge, Bool.false_eq_true, if_false, hrun]
          exact ⟨_, rfl, rfl⟩
  | reporting | closing | finished =>
      simp only [Shift.foremanStep, hforeman, hrun]
      exact ⟨_, rfl, rfl⟩

/-- **A settled shift goes on as its run does.** -/
theorem step (hsettled : Settled h) (kept : Kept room h) {turn : Run.Turn} {r : Run σ}
    (hrun : Run.step room h.run turn = some r) : ∃ g, Shift.step room h turn = some g ∧ g.run = r := by
  cases turn with
  | foreman => exact hsettled.foremanStep kept hrun
  | worker i => exact kept.workerStep hrun
  | clerk now =>
      simp only [Run.step, Run.clerkStep, Option.map_eq_some_iff] at hrun
      obtain ⟨x, hwork, rfl⟩ := hrun
      have hsame := work_of_held (fun hkeys => hsettled.held_of_keys kept (of_decide_eq_true hkeys))
        hwork
      simp only [Shift.step, clerkStep, hsame]
      exact ⟨_, rfl, rfl⟩

end Settled

/-- **Runs are the runs of shifts.** -/
theorem reach_iff {r : Run σ} : Run.Reach room (Run.opened due capacity s) r ↔
    ∃ h, Reach room (opened room due capacity s) h ∧ h.run = r := by
  constructor
  · intro hrun
    -- through settled states
    suffices hsettled : ∃ h, Reach room (opened room due capacity s) h ∧ Settled h ∧ h.run = r by
      obtain ⟨h, hreach, -, hsame⟩ := hsettled
      exact ⟨h, hreach, hsame⟩
    induction hrun with
    | refl => exact ⟨_, .refl, by simp [Settled, opened], rfl⟩
    | tail _ hstep ih =>
        obtain ⟨h, hreach, hsettled, rfl⟩ := ih
        obtain ⟨turn, hturn⟩ := hstep
        obtain ⟨g, hg, rfl⟩ := hsettled.step hreach.kept hturn
        obtain ⟨f, hmore, hdone, hsame⟩ := settles room g
        exact ⟨f, (hreach.tail ⟨turn, hg⟩).trans hmore, hdone, hsame⟩
  · rintro ⟨h, hreach, rfl⟩
    exact hreach.toRun

/-- Somebody can go on, until the run is over. -/
theorem Reach.enabled (hreach : Reach room (opened room due capacity s) h)
    (hfinished : h.run.foreman ≠ .finished) : ∃ g, Step room h g := by
  by_cases hsettled : Settled h
  · obtain ⟨past, hpast⟩ := Run.reach_iff_chronicle.mp hreach.toRun
    obtain ⟨turn, hturn⟩ := hpast.enabled hfinished default
    obtain ⟨r, hrun⟩ := Option.isSome_iff_exists.mp hturn
    obtain ⟨g, hg, -⟩ := hsettled.step hreach.kept hrun
    exact ⟨g, turn, hg⟩
  · obtain ⟨i, k, p, hk, hp, hover, hbadge⟩ := exists_give hsettled
    obtain ⟨g, hg, -⟩ := give room hk hp hover hbadge
    exact ⟨g, .worker i, hg⟩

/-- Whoever is inside can go on where there is room at the desk, at work or not. -/
theorem Kept.worker_enabled (kept : Kept room h) (hoffer : ∀ e, (h.run.desk.offer e).isSome) {i : Nat}
    {p : Pass} (hp : h.passes[i]? = some p) (hbadge : p.badge = true) :
    (step room h (.worker i)).isSome := by
  obtain ⟨k, hk⟩ := kept.worker hp
  cases hover : k.isOver with
  | true =>
      obtain ⟨g, hg, -⟩ := give room hk hp hover hbadge
      simp [hg]
  | false =>
      obtain ⟨r, hrun⟩ := Option.isSome_iff_exists.mp (Run.worker_enabled hk hover hoffer)
      obtain ⟨g, hg, -⟩ := kept.workerStep hrun
      simp [hg]

/-- At the end nobody is inside. -/
theorem Kept.inside_eq_zero (kept : Kept room h) (hfinished : h.run.foreman = .finished) :
    h.inside = 0 := by
  refine List.countP_eq_zero.mpr fun p hp => ?_
  obtain ⟨i, hi⟩ := List.mem_iff_getElem?.mp hp
  have hlt := (List.getElem?_eq_some_iff.mp hi).1
  simp [kept.gone i p (by simpa [seen, hfinished] using hlt) hi]

/-- **No shift gets stuck, and no run**, whatever is due, however little room there is at the desk and
however few may be at work.  Short of the end somebody can go on: the clerk, where an event has to
wait, whoever brings it; and once the clerk is gone everyone who is inside, and the foreman with its
report.  No badge and no key is ever lost.  At the end every worker has ended and all badges and keys
are back; and unless the clerk broke, it has entered everything that was brought. -/
theorem Reach.never_stuck (hreach : Reach room (opened room due capacity s) h) :
    (h.run.foreman ≠ .finished → (∃ g, Step room h g) ∧ ∃ r, Run.Step room h.run r) ∧
      (∀ e, h.run.desk.offer e = none → ∀ now, (step room h (.clerk now)).isSome) ∧
      (h.run.desk.isOver = true →
        (∀ i p, h.passes[i]? = some p → p.badge = true → (step room h (.worker i)).isSome) ∧
        ∀ i campaign text, h.run.foreman = .reporting i campaign text →
          (step room h .foreman).isSome) ∧
      (h.badges + h.inside = room.settings.concurrency ∧
        h.keys = h.run.foremanHolds.toNat + h.handed) ∧
      (h.run.foreman = .finished →
        (∀ k ∈ h.run.workers, k.isOver = true) ∧ h.inside = 0 ∧
        h.badges = room.settings.concurrency ∧ h.keys = 0 ∧
        ((∀ text, h.run.desk.clerk ≠ .broken text) →
          h.run.desk.clerk = .closed ∧ h.run.desk.queue = [] ∧
          ∀ past, Run.Chronicle room (Run.opened due capacity s) past h.run →
            Deed.events (Run.deeds past) = h.run.desk.ledger.events)) := by
  have kept := hreach.kept
  obtain ⟨past, hpast⟩ := Run.reach_iff_chronicle.mp hreach.toRun
  refine ⟨?_, ?_, ?_, ⟨kept.badges, kept.keys⟩, ?_⟩
  · intro hfinished
    obtain ⟨turn, hturn⟩ := hpast.enabled hfinished default
    obtain ⟨r, hrun⟩ := Option.isSome_iff_exists.mp hturn
    exact ⟨hreach.enabled hfinished, r, turn, hrun⟩
  · intro e hfull now
    have hwork := Desk.work_of_full (w := room.world) hpast.capacity_pos hfull now (0 < h.keys)
      h.run.world
    simpa only [step, clerkStep, Option.isSome_map] using hwork
  · intro hover
    have hoffer : ∀ e, (h.run.desk.offer e).isSome := by simp [Desk.offer, hover]
    refine ⟨fun i p hp hbadge => kept.worker_enabled hoffer hp hbadge, ?_⟩
    intro i campaign text hforeman
    simpa only [step, foremanStep, hforeman, Run.foremanStep, Option.isSome_map] using hoffer _
  · intro hfinished
    have hinside := kept.inside_eq_zero hfinished
    refine ⟨fun k hk => ?_, hinside, ?_, ?_, fun hsound => ?_⟩
    · obtain ⟨i, hi⟩ := List.mem_iff_getElem?.mp hk
      obtain ⟨o, hended⟩ := hpast.ended_of_finished hfinished (hpast.due_at hi)
      rw [Option.some.inj (hi.symm.trans hended)]
      rfl
    · have hbadges := kept.badges
      rwa [hinside] at hbadges
    · rw [kept.keys, kept.handed_eq_zero hinside, Run.foremanHolds, hfinished]
      rfl
    · have hover := hpast.entered.finished hfinished
      have hclosed : h.run.desk.clerk = .closed := by
        cases hclerk : h.run.desk.clerk with
        | waiting | storing => simp [Desk.isOver, hclerk] at hover
        | closed => rfl
        | broken text => exact (hsound text hclerk).elim
      obtain ⟨hqueue, -⟩ := hpast.entered.closed hclosed
      refine ⟨hclosed, hqueue, fun past' hpast' => ?_⟩
      simpa [hqueue] using hpast'.entered.known hsound

end Shift

namespace Sample

/-- A shift over both campaigns in which the clerk takes no turns, until nobody else can go on. -/
def jam : Shift Unit :=
  Shift.follow room (List.replicate 12 [.foreman, .worker 0, .worker 1]).flatten
    (Shift.opened room due 1 ())

/-- A shift over both campaigns from start to end. -/
def shift : Shift Unit :=
  Shift.follow room (List.replicate 40 round).flatten (Shift.opened room due 1 ())

theorem reach_jam : Shift.Reach room (Shift.opened room due 1 ()) jam :=
  Shift.reach_follow _ _ _

theorem reach_shift : Shift.Reach room (Shift.opened room due 1 ()) shift :=
  Shift.reach_follow _ _ _

end Sample

namespace Shift

/-- In the jam both workers have an event for a full desk and the foreman waits for one of them, but
the clerk can go on.  In the end all badges are back, also that of the worker that broke. -/
theorem Reach.never_stuck_of_sample :
    ([.foreman, .worker 0, .worker 1].all fun turn =>
        (step Sample.room Sample.jam turn).isNone) = true ∧
      (∀ now, (step Sample.room Sample.jam (.clerk now)).isSome) ∧
      (∃ g, Step Sample.room Sample.jam g) ∧
      (Sample.shift.badges = 10 ∧ Sample.shift.keys = 0) ∧
      Sample.shift.run.desk.queue = [] := by
  obtain ⟨hgoes, hclerk, -⟩ := Sample.reach_jam.never_stuck
  obtain ⟨-, -, -, -, hend⟩ := Sample.reach_shift.never_stuck
  have hfull : Sample.jam.run.desk.offer (.running Sample.autumn.id 3) = none := by decide +kernel
  have hfinished : Sample.shift.run.foreman = .finished := by decide +kernel
  have hclosed : Sample.shift.run.desk.clerk = .closed := by decide +kernel
  obtain ⟨-, -, hbadges, hkeys, hdesk⟩ := hend hfinished
  obtain ⟨hstep, -⟩ := hgoes (by decide +kernel)
  refine ⟨by decide +kernel, hclerk _ hfull, hstep, ⟨hbadges, hkeys⟩, ?_⟩
  exact (hdesk (by simp [hclosed])).2.1

end Shift

end Mailshot
