import Mailshot.Proofs.Places
import Mailshot.Proofs.Shift.Basic

/-!
# The account of badges and keys

No badge and no key is lost.  A worker at work has its badge and a key; whoever has given back the
badge has no key either.  So the badges that are left are those that no worker has, and the keys that
are out are those of the workers and the one of the foreman.

This makes a shift a run: who has a badge to spare may let in a worker, and who counts no keys may
close the desk.

* `Shift.Kept`: the account;
* `Shift.Reach.kept`: it is kept by every turn;
* `Shift.Reach.toRun`: the run of a shift is a run.
-/

namespace Mailshot.Shift

variable {σ : Type} {room : Mailroom σ} {h g : Shift σ} {due : List Campaign} {capacity : Nat} {s : σ}

/-- What a worker may have. -/
structure Fits (k : Worker) (p : Pass) : Prop where
  busy : k.isOver = false → p.badge = true ∧ 0 < p.keys
  gone : p.badge = false → p.keys = 0

/-- The number of workers that the foreman has seen end. -/
def seen (h : Shift σ) : Nat :=
  match h.run.foreman with
  | .starting => 0
  | .joining i => i
  | .reporting i _ _ => i + 1
  | .closing | .finished => h.passes.length

/-- **The account**: who has the badges and keys. -/
structure Kept (room : Mailroom σ) (h : Shift σ) : Prop where
  fits : List.Forall₂ Fits h.run.workers h.passes
  badges : h.badges + h.inside = room.settings.concurrency
  keys : h.keys = h.run.foremanHolds.toNat + h.handed
  /-- The foreman has seen only workers that have given back everything. -/
  gone : ∀ i p, i < h.seen → h.passes[i]? = some p → p.badge = false

theorem kept_opened (room : Mailroom σ) (due : List Campaign) (capacity : Nat) (s : σ) :
    Kept room (opened room due capacity s) where
  fits := .nil
  badges := rfl
  keys := rfl
  gone i p hi := by simp [opened, Run.opened, seen] at hi

namespace Kept

theorem length_eq (kept : Kept room h) : h.run.workers.length = h.passes.length :=
  kept.fits.length_eq

theorem pass (kept : Kept room h) {i : Nat} {k : Worker} (hk : h.run.workers[i]? = some k) :
    ∃ p, h.passes[i]? = some p := by
  obtain ⟨hi, -⟩ := List.getElem?_eq_some_iff.mp hk
  exact ⟨_, List.getElem?_eq_getElem (kept.length_eq ▸ hi)⟩

theorem worker (kept : Kept room h) {i : Nat} {p : Pass} (hp : h.passes[i]? = some p) :
    ∃ k, h.run.workers[i]? = some k := by
  obtain ⟨hi, -⟩ := List.getElem?_eq_some_iff.mp hp
  exact ⟨_, List.getElem?_eq_getElem (kept.length_eq ▸ hi)⟩

/-- Workers at work have a badge. -/
theorem busy_le (kept : Kept room h) : h.run.busy.length ≤ h.inside := by
  rw [Run.busy, ← List.countP_eq_length_filter, inside]
  exact countP_le_of_forall₂ kept.fits fun k p hfits hbusy => (hfits.busy (by simpa using hbusy)).1

/-- As long as anyone can bring an event, a key is out. -/
theorem keys_pos (kept : Kept room h) (hheld : h.run.held = true) : 0 < h.keys := by
  rw [kept.keys]
  cases hholds : h.run.foremanHolds with
  | true => exact Nat.add_pos_left Nat.one_pos _
  | false =>
      have hbusy : h.run.busy ≠ [] := by simpa [Run.held, hholds] using hheld
      obtain ⟨k, hk⟩ := List.exists_mem_of_ne_nil _ hbusy
      obtain ⟨hworker, hnot⟩ := List.mem_filter.mp hk
      obtain ⟨i, hi⟩ := List.mem_iff_getElem?.mp hworker
      obtain ⟨p, hp⟩ := kept.pass hi
      obtain ⟨-, hpos⟩ := (forall₂_getElem? kept.fits hi hp).busy (by simpa using hnot)
      have hle : p.keys ≤ h.handed := le_sum_map (·.keys) hp
      omega

/-- Where nobody is inside, nobody has a key. -/
theorem handed_eq_zero (kept : Kept room h) (hinside : h.inside = 0) : h.handed = 0 := by
  refine List.sum_eq_zero_iff.mpr fun keys hmem => ?_
  obtain ⟨p, hp, rfl⟩ := List.mem_map.mp hmem
  obtain ⟨i, hi⟩ := List.mem_iff_getElem?.mp hp
  obtain ⟨k, hk⟩ := kept.worker hi
  have hbadge : p.badge = false := by simpa using List.countP_eq_zero.mp hinside p hp
  exact (forall₂_getElem? kept.fits hk hi).gone hbadge

/-- The account is kept where one worker and its pass change. -/
theorem set (kept : Kept room h) {i : Nat} {k : Worker} {p q : Pass}
    (hp : h.passes[i]? = some p) (hfits : Fits k q)
    (hworkers : g.run.workers = h.run.workers.set i k) (hpasses : g.passes = h.passes.set i q)
    (hforeman : g.run.foreman = h.run.foreman)
    (hbadges : g.badges + q.badge.toNat = h.badges + p.badge.toNat)
    (hkeys : g.keys + p.keys = h.keys + q.keys) (hgone : p.badge = false → q.badge = false) :
    Kept room g where
  fits := by
    rw [hworkers, hpasses]
    exact forall₂_set kept.fits hfits i
  badges := by
    have hcount := countP_set_add (y := q) (·.badge) hp
    have hbefore := kept.badges
    simp only [inside, hpasses] at hbefore ⊢
    omega
  keys := by
    have hsum := sum_map_set (y := q) (·.keys) hp
    have hbefore := kept.keys
    have hholds : g.run.foremanHolds = h.run.foremanHolds := by simp only [Run.foremanHolds, hforeman]
    simp only [handed, hpasses, hholds] at hbefore ⊢
    omega
  gone := by
    intro j p' hj hp'
    have hseen : g.seen = h.seen := by simp only [seen, hforeman, hpasses, List.length_set]
    rw [hseen] at hj
    rw [hpasses] at hp'
    by_cases hij : i = j
    · subst hij
      obtain ⟨hlt, -⟩ := List.getElem?_eq_some_iff.mp hp
      rw [List.getElem?_set_self hlt] at hp'
      obtain rfl : q = p' := by simpa using hp'
      exact hgone (kept.gone i p hj hp)
    · exact kept.gone j p' hj (by rwa [List.getElem?_set_ne hij] at hp')

/-- The account is kept where workers and passes stay as they are, as long as the foreman has seen
only workers that have given back everything. -/
theorem frame (kept : Kept room h) (hworkers : g.run.workers = h.run.workers)
    (hpasses : g.passes = h.passes) (hbadges : g.badges = h.badges)
    (hkeys : g.keys + h.run.foremanHolds.toNat = h.keys + g.run.foremanHolds.toNat)
    (hgone : ∀ i p, i < g.seen → h.passes[i]? = some p → p.badge = false) : Kept room g where
  fits := by rw [hworkers, hpasses]; exact kept.fits
  badges := by
    have hbefore := kept.badges
    simp only [inside, hpasses, hbadges] at hbefore ⊢
    exact hbefore
  keys := by
    have hbefore := kept.keys
    simp only [handed, hpasses] at hbefore ⊢
    omega
  gone := by rw [hpasses]; exact hgone

/-- A worker is let in with a badge that was left, and with a key of its own. -/
theorem spawn (kept : Kept room h) {c : Campaign} {badges : Nat}
    (hforeman : h.run.foreman = .starting) (hleft : h.badges = badges + 1)
    (hworkers : g.run.workers = h.run.workers ++ [{ campaign := c }])
    (hsame : g.run.foreman = h.run.foreman) (hbadges : g.badges = badges)
    (hkeys : g.keys = h.keys + 1) (hpasses : g.passes = h.passes ++ [({} : Pass)]) :
    Kept room g where
  fits := by
    rw [hworkers, hpasses]
    exact List.rel_append kept.fits (.cons ⟨by simp, by simp⟩ .nil)
  badges := by
    have hbefore := kept.badges
    simp only [inside, hpasses, List.countP_append, List.countP_singleton, if_true] at hbefore ⊢
    omega
  keys := by
    have hbefore := kept.keys
    simp only [Run.foremanHolds, hsame, hforeman, handed, hpasses, List.map_append, List.map_singleton,
      List.sum_append, List.sum_singleton] at hbefore ⊢
    omega
  gone := by
    intro i p hi
    simp [seen, hsame, hforeman] at hi

/-- The foreman keeps the account, for it looks after nobody who still has a badge. -/
theorem proceed (kept : Kept room h) {run : Run σ} (hrun : Run.step room h.run .foreman = some run)
    (hstarting : h.run.foreman = .starting → h.run.waiting = [])
    (hjoining : ∀ i, h.run.foreman = .joining i → ∃ p, h.passes[i]? = some p ∧ p.badge = false) :
    Kept room { h with run } := by
  have hlook : ∀ i n, h.run.foreman = .joining n → i < n + 1 → ∀ p, h.passes[i]? = some p →
      p.badge = false := by
    intro i n hforeman hi p hp
    obtain ⟨q, hq, hgone⟩ := hjoining n hforeman
    rcases Nat.lt_succ_iff_lt_or_eq.mp hi with hlt | rfl
    · exact kept.gone i p (by simpa [seen, hforeman] using hlt) hp
    · obtain rfl : q = p := by simpa [hq] using hp
      exact hgone
  obtain ⟨d, htransition⟩ := Run.exists_transition hrun
  cases htransition with
  | spawn hforeman hwaiting => simp [hstarting hforeman] at hwaiting
  | spawned hforeman =>
      exact kept.frame rfl rfl rfl (by simp [Run.foremanHolds, hforeman]) (by simp [seen])
  | joinMailed hforeman | joinFailed hforeman | joinBroken hforeman =>
      exact kept.frame rfl rfl rfl (by simp [Run.foremanHolds, hforeman])
        fun i p hi => hlook i _ hforeman hi p
  | reportBroken hforeman | finish hforeman =>
      refine kept.frame rfl rfl rfl (by simp [Run.foremanHolds, hforeman]) fun i p hi hp => ?_
      exact kept.gone i p (by simpa [seen, hforeman] using hi) hp
  | joinedAll hforeman hnone =>
      -- there are as many passes as workers, so the foreman would have handed in its key
      obtain ⟨p, hp, -⟩ := hjoining _ hforeman
      have hlt := (List.getElem?_eq_some_iff.mp hp).1
      have hge := List.getElem?_eq_none_iff.mp hnone
      rw [kept.length_eq] at hge
      omega

theorem fits_work {k k' : Worker} {p : Pass} (hfits : Fits k p) (hbusy : k.isOver = false)
    (keys : Nat) : Fits k' { p with keys := max p.keys keys } := by
  obtain ⟨hbadge, hpos⟩ := hfits.busy hbusy
  refine ⟨fun _ => ⟨hbadge, Nat.lt_of_lt_of_le hpos (Nat.le_max_left _ _)⟩, fun hgone => ?_⟩
  rw [hbadge] at hgone
  cases hgone

/-- **Every turn keeps the account.** -/
theorem transition (kept : Kept room h) {turn : Run.Turn} (hstep : Transition room h turn g) :
    Kept room g := by
  cases hstep with
  | spawn hforeman hwaiting hbadges => exact kept.spawn hforeman hbadges rfl rfl rfl rfl rfl
  | proceed hrun hstarting hjoining => exact kept.proceed hrun hstarting hjoining
  | @close i hforeman hnone =>
      have hkeys := kept.keys
      refine kept.frame rfl rfl rfl ?_ fun j p hj hp => ?_
      · simp only [Run.foremanHolds, hforeman, Bool.toNat_true] at hkeys
        simp only [Run.foremanHolds, hforeman, Bool.toNat_true, Bool.toNat_false]
        omega
      · have hlength := List.getElem?_eq_none_iff.mp hnone
        have hlt := (List.getElem?_eq_some_iff.mp hp).1
        exact kept.gone j p (by simp only [seen, hforeman]; omega) hp
  | @work i k p run hk hp hbusy hrun =>
      have hfits := forall₂_getElem? kept.fits hk hp
      have hstep : Run.step room h.run (.worker i) = some run := hrun
      obtain ⟨d, htransition⟩ := Run.exists_transition hstep
      cases htransition with
      | act hk' | report hk' =>
          refine kept.set hp (fits_work hfits hbusy _) rfl rfl rfl rfl ?_ id
          dsimp only
          omega
  | @giveKey i keys k p hk hp hover hkeys =>
      have hfits := forall₂_getElem? kept.fits hk hp
      have hgone : p.badge = false → keys = 0 := by
        intro hbadge
        have hnone := hfits.gone hbadge
        omega
      have hle : p.keys ≤ h.handed := le_sum_map (·.keys) hp
      have hbefore := kept.keys
      have hfits' : Fits k { p with keys } := ⟨by simp [hover], hgone⟩
      refine kept.set hp hfits' (set_eq_self hk).symm rfl rfl rfl ?_ id
      dsimp only
      omega
  | @giveBadge i k p hk hp hover hkeys hbadge =>
      have hfits : Fits k { p with badge := false } := ⟨by simp [hover], fun _ => hkeys⟩
      refine kept.set hp hfits (set_eq_self hk).symm rfl rfl ?_ rfl fun _ => rfl
      simp [hbadge]
  | clerk => exact kept.frame rfl rfl rfl rfl kept.gone

end Kept

/-- What the clerk does at a desk that may be held, it does at one that is held no more. -/
theorem work_of_held {w : World σ} {now : Instant} {b held : Bool} {d : Desk}
    {x : Desk × Counters × σ} (hheld : held = true → b = true)
    (hwork : d.work w now b s = some x) : d.work w now held s = some x := by
  unfold Desk.work at hwork ⊢
  cases hclerk : d.clerk with
  | waiting =>
      cases hqueue : d.queue with
      | cons e rest => simpa only [hclerk, hqueue] using hwork
      | nil =>
          cases held with
          | true => simp [hclerk, hqueue, hheld] at hwork
          | false =>
              cases b with
              | true => simp [hclerk, hqueue] at hwork
              | false => simpa only [hclerk, hqueue] using hwork
  | storing | closed | broken => simpa only [hclerk] using hwork

/-- **A turn of a shift is a turn of its run**, or one at which a worker gives something back. -/
theorem Transition.toRun (kept : Kept room h) {turn : Run.Turn} (hstep : Transition room h turn g) :
    g.run = h.run ∨ Run.step room h.run turn = some g.run := by
  cases hstep with
  | spawn hforeman hwaiting hbadges =>
      -- a badge that is left is one that no worker at work has
      have hbusy := kept.busy_le
      have hcount := kept.badges
      have hfree : h.run.busy.length < room.settings.concurrency := by omega
      refine Or.inr ?_
      simp only [Run.step, Run.foremanStep, hforeman, hwaiting, hfree, if_true]
  | proceed hrun => exact Or.inr hrun
  | @close i hforeman hnone =>
      have hworker : h.run.workers[i]? = none := by
        rw [List.getElem?_eq_none_iff, kept.length_eq]
        exact List.getElem?_eq_none_iff.mp hnone
      refine Or.inr ?_
      simp only [Run.step, Run.foremanStep, hforeman, hworker]
  | work _ _ _ hrun => exact Or.inr hrun
  | giveKey | giveBadge => exact Or.inl rfl
  | clerk hwork =>
      have hrun := work_of_held (fun hheld => decide_eq_true (kept.keys_pos hheld)) hwork
      refine Or.inr ?_
      simp only [Run.step, Run.clerkStep, hrun, Option.map_some]

/-- **The account is kept.** -/
theorem Reach.kept (hreach : Reach room (opened room due capacity s) h) : Kept room h := by
  induction hreach with
  | refl => exact kept_opened room due capacity s
  | tail _ hstep ih =>
      obtain ⟨turn, hturn⟩ := hstep
      exact ih.transition (step_transition hturn)

/-- The run of a shift is a run. -/
theorem Reach.toRun (hreach : Reach room (opened room due capacity s) h) :
    Run.Reach room (Run.opened due capacity s) h.run := by
  induction hreach with
  | refl => exact .refl
  | tail hpast hstep ih =>
      obtain ⟨turn, hturn⟩ := hstep
      rcases (step_transition hturn).toRun hpast.kept with hsame | hrun
      · rwa [hsame]
      · exact ih.tail ⟨turn, hrun⟩

end Mailshot.Shift
