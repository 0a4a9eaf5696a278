import Mathlib.Algebra.GroupWithZero.Nat
import Mailshot.Proofs.Run.Chronicle

/-!
# Shifts

A shift is a run in which badges and keys are counted one by one.  A worker is let in with a badge,
of which there are as many as may be at work, and with a key to the desk; before it posts anything it
has a second key cut, for whoever tells its progress.  When it has ended, in whatever way, it gives
back its keys and then its badge, each at a turn of its own.  The foreman goes by the badges that are
left, looks after a worker only when that has given back its badge, and hands in a key of its own
after the last one; the clerk goes by the number of keys.

* `Shift.step`: one turn of the foreman, a worker or the clerk;
* `Shift.Step`, `Shift.Reach`: any turn, and any number of them;
* `Shift.Transition`, `Shift.step_transition`: every way in which a shift goes on;
* `Shift.follow`: the shift that given turns lead to.
-/

namespace Mailshot

/-- The keys that a worker has a use for: one to report with, and while it posts one for whoever
tells its progress. -/
def Phase.keys : Phase → Nat
  | .posting .. | .awaiting .. | .reporting .. => 2
  | .ended _ => 0
  | _ => 1

/-- What a worker was given and has not given back. -/
structure Pass where
  badge : Bool := true
  keys : Nat := 1
  deriving DecidableEq, Repr

/-- A run under way, with its badges and keys. -/
structure Shift (σ : Type) where
  run : Run σ
  /-- The badges that nobody has. -/
  badges : Nat
  /-- The keys to the desk that are out. -/
  keys : Nat
  /-- What the workers have, in the order of the workers. -/
  passes : List Pass := []

namespace Shift

variable {σ : Type}

/-- A shift over due campaigns that has yet to begin.  All badges are left, and the foreman has the
only key. -/
def opened (room : Mailroom σ) (due : List Campaign) (capacity : Nat) (s : σ) : Shift σ :=
  { run := .opened due capacity s, badges := room.settings.concurrency, keys := 1 }

/-- The foreman's turn. -/
def foremanStep (room : Mailroom σ) (h : Shift σ) : Option (Shift σ) :=
  match h.run.foreman with
  | .starting =>
    match h.run.waiting with
    | [] => some { h with run := { h.run with foreman := .joining 0 } }
    | c :: rest =>
      match h.badges with
      | 0 => none
      | badges + 1 =>
        some { run := { h.run with waiting := rest, workers := h.run.workers ++ [{ campaign := c }] },
               badges, keys := h.keys + 1, passes := h.passes ++ [{}] }
  | .joining i =>
    match h.passes[i]? with
    | none => some { h with run := { h.run with foreman := .closing }, keys := h.keys - 1 }
    | some p => if p.badge then none else (h.run.foremanStep room).map fun run => { h with run }
  | _ => (h.run.foremanStep room).map fun run => { h with run }

/-- The keys that the worker at place `i` has a use for. -/
def keysFor (r : Run σ) (i : Nat) : Nat :=
  r.workers[i]?.elim 0 (·.phase.keys)

/-- The turn of the worker at place `i`. -/
def workerStep (room : Mailroom σ) (h : Shift σ) (i : Nat) : Option (Shift σ) :=
  match h.run.workers[i]?, h.passes[i]? with
  | some k, some p =>
    if k.isOver then
      match p.keys with
      | keys + 1 => some { h with keys := h.keys - 1, passes := h.passes.set i { p with keys } }
      | 0 =>
        if p.badge then
          some { h with badges := h.badges + 1, passes := h.passes.set i { p with badge := false } }
        else none
    else
      (h.run.workerStep room i).map fun run =>
        let keys := max p.keys (keysFor run i)
        { h with run, keys := h.keys + (keys - p.keys), passes := h.passes.set i { p with keys } }
  | _, _ => none

/-- The clerk's turn. -/
def clerkStep (room : Mailroom σ) (h : Shift σ) (now : Instant) : Option (Shift σ) :=
  (h.run.desk.work room.world now (0 < h.keys) h.run.world).map fun (desk, counters, world) =>
    { h with run := { h.run with desk, counters := h.run.counters + counters, world } }

/-- Takes a turn, none where the one whose turn it is has to wait or is done. -/
def step (room : Mailroom σ) (h : Shift σ) : Run.Turn → Option (Shift σ)
  | .foreman => foremanStep room h
  | .worker i => workerStep room h i
  | .clerk now => clerkStep room h now

/-- Some turn leads from one state to the next. -/
def Step (room : Mailroom σ) (h g : Shift σ) : Prop :=
  ∃ turn, step room h turn = some g

/-- Some turns lead from one state to another. -/
inductive Reach (room : Mailroom σ) (h : Shift σ) : Shift σ → Prop where
  | refl : Reach room h h
  | tail {f g} : Reach room h f → Step room f g → Reach room h g

/-- The workers that were let in and have not given back their badge. -/
def inside (h : Shift σ) : Nat :=
  h.passes.countP (·.badge)

/-- The keys that workers have. -/
def handed (h : Shift σ) : Nat :=
  (h.passes.map (·.keys)).sum

/-- Every way in which a shift goes on. -/
inductive Transition (room : Mailroom σ) (h : Shift σ) : Run.Turn → Shift σ → Prop where
  /-- A worker is let in. -/
  | spawn {c : Campaign} {rest : List Campaign} {badges : Nat}
      (hforeman : h.run.foreman = .starting) (hwaiting : h.run.waiting = c :: rest)
      (hbadges : h.badges = badges + 1) :
      Transition room h .foreman
        { run := { h.run with waiting := rest, workers := h.run.workers ++ [{ campaign := c }] },
          badges, keys := h.keys + 1, passes := h.passes ++ [{}] }
  /-- The foreman goes on as in any run. -/
  | proceed {run : Run σ} (hrun : Run.foremanStep room h.run = some run)
      (hstarting : h.run.foreman = .starting → h.run.waiting = [])
      (hjoining : ∀ i, h.run.foreman = .joining i → ∃ p, h.passes[i]? = some p ∧ p.badge = false) :
      Transition room h .foreman { h with run }
  /-- The foreman has looked after everyone. -/
  | close {i : Nat} (hforeman : h.run.foreman = .joining i) (hnone : h.passes[i]? = none) :
      Transition room h .foreman
        { h with run := { h.run with foreman := .closing }, keys := h.keys - 1 }
  /-- A worker goes on as in any run. -/
  | work {i : Nat} {k : Worker} {p : Pass} {run : Run σ} (hk : h.run.workers[i]? = some k)
      (hp : h.passes[i]? = some p) (hbusy : k.isOver = false)
      (hrun : Run.workerStep room h.run i = some run) :
      Transition room h (.worker i)
        { h with
          run
          keys := h.keys + (max p.keys (keysFor run i) - p.keys)
          passes := h.passes.set i { p with keys := max p.keys (keysFor run i) } }
  | giveKey {i keys : Nat} {k : Worker} {p : Pass} (hk : h.run.workers[i]? = some k)
      (hp : h.passes[i]? = some p) (hover : k.isOver = true) (hkeys : p.keys = keys + 1) :
      Transition room h (.worker i)
        { h with keys := h.keys - 1, passes := h.passes.set i { p with keys } }
  | giveBadge {i : Nat} {k : Worker} {p : Pass} (hk : h.run.workers[i]? = some k)
      (hp : h.passes[i]? = some p) (hover : k.isOver = true) (hkeys : p.keys = 0)
      (hbadge : p.badge = true) :
      Transition room h (.worker i)
        { h with badges := h.badges + 1, passes := h.passes.set i { p with badge := false } }
  | clerk {now : Instant} {desk : Desk} {counters : Counters} {s : σ}
      (hwork : h.run.desk.work room.world now (0 < h.keys) h.run.world = some (desk, counters, s)) :
      Transition room h (.clerk now)
        { h with run := { h.run with desk, counters := h.run.counters + counters, world := s } }

variable {room : Mailroom σ} {h g : Shift σ}

private theorem foremanStep_shifts (hstep : foremanStep room h = some g) :
    Transition room h .foreman g := by
  unfold foremanStep at hstep
  cases hforeman : h.run.foreman with
  | starting =>
      cases hwaiting : h.run.waiting with
      | nil =>
          simp only [hforeman, hwaiting, Option.some.injEq] at hstep
          subst hstep
          have hrun : Run.foremanStep room h.run =
              some { h.run with waiting := [], foreman := .joining 0 } := by
            simp only [Run.foremanStep, hforeman, hwaiting]
          exact .proceed hrun (fun _ => hwaiting) (by simp [hforeman])
      | cons c rest =>
          cases hbadges : h.badges with
          | zero => simp [hforeman, hwaiting, hbadges] at hstep
          | succ badges =>
              simp only [hforeman, hwaiting, hbadges, Option.some.injEq] at hstep
              subst hstep
              have hspawn : Transition room h .foreman _ := .spawn hforeman hwaiting hbadges
              simp only [hforeman] at hspawn
              exact hspawn
  | joining i =>
      cases hp : h.passes[i]? with
      | none =>
          simp only [hforeman, hp, Option.some.injEq] at hstep
          subst hstep
          exact .close hforeman hp
      | some p =>
          cases hbadge : p.badge <;>
            simp only [hforeman, hp, hbadge, Bool.false_eq_true, if_true, if_false, reduceCtorEq,
              Option.map_eq_some_iff] at hstep
          obtain ⟨run, hrun, rfl⟩ := hstep
          refine .proceed hrun (by simp [hforeman]) ?_
          intro j hj
          obtain rfl : i = j := by simpa [hforeman] using hj
          exact ⟨p, hp, hbadge⟩
  | reporting | closing | finished =>
      simp only [hforeman, Option.map_eq_some_iff] at hstep
      obtain ⟨run, hrun, rfl⟩ := hstep
      exact .proceed hrun (by simp [hforeman]) (by simp [hforeman])

private theorem workerStep_shifts {i : Nat} (hstep : workerStep room h i = some g) :
    Transition room h (.worker i) g := by
  unfold workerStep at hstep
  cases hk : h.run.workers[i]? with
  | none => simp [hk] at hstep
  | some k =>
      cases hp : h.passes[i]? with
      | none => simp [hk, hp] at hstep
      | some p =>
          cases hover : k.isOver with
          | false =>
              simp only [hk, hp, hover, Bool.false_eq_true, if_false, Option.map_eq_some_iff] at hstep
              obtain ⟨run, hrun, rfl⟩ := hstep
              exact .work hk hp hover hrun
          | true =>
              cases hkeys : p.keys with
              | succ keys =>
                  simp only [hk, hp, hover, hkeys, if_true, Option.some.injEq] at hstep
                  exact hstep ▸ .giveKey hk hp hover hkeys
              | zero =>
                  cases hbadge : p.badge <;>
                    simp only [hk, hp, hover, hkeys, hbadge, Bool.false_eq_true, if_true, if_false,
                      Option.some.injEq, reduceCtorEq] at hstep
                  have hgive : Transition room h (.worker i) _ := .giveBadge hk hp hover hkeys hbadge
                  rw [hkeys] at hgive
                  exact hstep ▸ hgive

/-- **A turn is a transition.** -/
theorem step_transition {turn : Run.Turn} (hstep : step room h turn = some g) :
    Transition room h turn g := by
  cases turn with
  | foreman => exact foremanStep_shifts hstep
  | worker i => exact workerStep_shifts hstep
  | clerk now =>
      simp only [step, clerkStep, Option.map_eq_some_iff] at hstep
      obtain ⟨⟨desk, counters, s⟩, hwork, rfl⟩ := hstep
      exact .clerk hwork

/-- Takes turns one after another, passing over those in which nobody can go on. -/
def follow (room : Mailroom σ) (turns : List Run.Turn) (h : Shift σ) : Shift σ :=
  turns.foldl (fun g turn => (step room g turn).getD g) h

theorem reach_follow (room : Mailroom σ) (turns : List Run.Turn) (h : Shift σ) :
    Reach room h (follow room turns h) := by
  unfold follow
  induction turns using List.reverseRecOn with
  | nil => exact .refl
  | append_singleton turns turn ih =>
      rw [List.foldl_append, List.foldl_cons, List.foldl_nil]
      cases hstep : step room (turns.foldl (fun g turn => (step room g turn).getD g) h) turn with
      | none => exact ih
      | some g => exact ih.tail ⟨turn, hstep⟩

end Shift

end Mailshot
