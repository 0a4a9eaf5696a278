import Mailshot.Audience
import Mailshot.Desk

/-!
# Feeding a desk

Any number of producers bring events to one desk, each its own in order.  Each holds the desk until
its events are in and it lets go; then the clerk finishes what waits, and closes.

* `Feed.step`: one turn of a producer or the clerk;
* `Feed.Step`, `Feed.Reach`: any turn, and any number of them;
* `Feed.play`: the turns that are taken when the program runs.
-/

namespace Mailshot

/-- Producers with the events that they have yet to bring, none for a producer that let go, and the
desk that they bring them to. -/
structure Feed (σ : Type) where
  producers : List (Option (List Event))
  desk : Desk
  counters : Counters := {}
  world : σ

/-- Whose turn it is. -/
inductive Feed.Turn where
  | producer (i : Nat)
  | clerk (now : Instant)
  deriving DecidableEq, Repr

namespace Feed

/-- Is the desk held by a producer? -/
def held (f : Feed σ) : Bool :=
  f.producers.any (·.isSome)

/-- Takes a turn, none where the one whose turn it is has to wait or is done. -/
def step (w : World σ) (f : Feed σ) : Turn → Option (Feed σ)
  | .producer i =>
    match f.producers[i]? with
    | some (some (e :: rest)) =>
      (f.desk.offer e).map fun (desk, counters) =>
        { f with producers := f.producers.set i (some rest), desk,
                 counters := f.counters + counters }
    | some (some []) => some { f with producers := f.producers.set i none }
    | _ => none
  | .clerk now =>
    (f.desk.work w now f.held f.world).map fun (desk, counters, world) =>
      { f with desk, counters := f.counters + counters, world }

/-- Some turn leads from one state to the next. -/
def Step (w : World σ) (f g : Feed σ) : Prop :=
  ∃ turn, step w f turn = some g

/-- Some turns lead from one state to another. -/
inductive Reach (w : World σ) (f : Feed σ) : Feed σ → Prop where
  | refl : Reach w f f
  | tail {g h} : Reach w f g → Step w g h → Reach w f h

/-- Takes turns, producers before the clerk, until nobody can go on. -/
def playFrom (w : World σ) (now : Instant) : Nat → Feed σ → Feed σ
  | 0, f => f
  | fuel + 1, f =>
    let turns := (List.range f.producers.length).map Turn.producer ++ [.clerk now]
    match turns.findSome? (step w f) with
    | some g => playFrom w now fuel g
    | none => f

/-- Brings the events of producers to a desk and lets the clerk finish. -/
def play (w : World σ) (now : Instant) (producers : List (List Event)) (desk : Desk) (s : σ) :
    Feed σ :=
  playFrom w now turnLimit { producers := producers.map some, desk, world := s }

end Feed

end Mailshot
