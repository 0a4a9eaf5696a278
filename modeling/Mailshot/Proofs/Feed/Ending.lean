import Mathlib.Algebra.GroupWithZero.Nat
import Mailshot.Proofs.Feed.Chronicle
import Mailshot.Proofs.Places
import Mailshot.Proofs.Run.Progress

/-!
# No feed gets stuck

Until the clerk has gone somebody can go on: a clerk with an event or a row has work, and an empty
queue has room for whoever brings an event.  Every turn uses up some of what is left to do.

* `Feed.Chronicle.enabled`: somebody can go on;
* `Feed.Transition.toDo_lt`: every turn uses up some of what is left to do;
* `Feed.Chronicle.closes`: short of a crash, the clerk comes to close the desk.
-/

namespace Mailshot.Feed

open Run (clerkRank clerkRank_afterEntry_le)

variable {σ : Type} {w : World σ} {rows : List Campaign} {lists : List (List Event)}
  {capacity : Nat} {s : σ} {f g : Feed σ} {log : List Mark}

/-- There is room at the desk for one event at least. -/
theorem Chronicle.capacity_pos (h : Chronicle w (opened rows lists capacity s) log g) :
    0 < g.desk.capacity := by
  induction h with
  | refl => simp [opened, Desk.opened]
  | tail _ hstep ih =>
      cases step_transition hstep with
      | bring _ hoffer => exact (Desk.offer_frame hoffer).1 ▸ ih
      | leave => exact ih
      | clerk hwork => cases hwork <;> exact ih

/-- A producer that holds the desk can go on where there is room. -/
theorem producer_enabled (hheld : f.held = true) (hoffer : ∀ e, (f.desk.offer e).isSome) :
    ∃ turn, (step w f turn).isSome := by
  obtain ⟨p, hmem, hp⟩ := List.any_eq_true.mp hheld
  obtain ⟨list, rfl⟩ := Option.isSome_iff_exists.mp hp
  obtain ⟨i, hi⟩ := List.mem_iff_getElem?.mp hmem
  refine ⟨.producer i, ?_⟩
  cases list with
  | nil => simp [step, hi]
  | cons e rest => simpa [step, hi] using hoffer e

/-- **Somebody can go on**, until the clerk has gone. -/
theorem Chronicle.enabled (h : Chronicle w (opened rows lists capacity s) log g)
    (hover : g.desk.isOver = false) (now : Instant) : ∃ turn, (step w g turn).isSome := by
  cases hclerk : g.desk.clerk with
  | storing row =>
      refine ⟨.clerk now, ?_⟩
      simp only [step, Desk.work, hclerk, Option.isSome_map]
      split <;> rfl
  | waiting =>
      cases hqueue : g.desk.queue with
      | cons e rest => exact ⟨.clerk now, by simp [step, Desk.work, hclerk, hqueue]⟩
      | nil =>
          cases hheld : g.held with
          | false => exact ⟨.clerk now, by simp [step, Desk.work, hclerk, hqueue, hheld]⟩
          | true =>
              apply producer_enabled hheld
              simp [Desk.offer, hover, hqueue, h.capacity_pos]
  | closed | broken => simp [Desk.isOver, hclerk] at hover

/-- The turns for the events of a producer, and the one in which it lets go.  An event counts three
times until it is brought, and twice in the queue. -/
def producerRank : Option (List Event) → Nat
  | none => 0
  | some list => 3 * list.length + 1

/-- **What is left to do.** -/
def toDo (f : Feed σ) : Nat :=
  (f.producers.map producerRank).sum + 2 * f.desk.queue.length + clerkRank f.desk.clerk

/-- **Every turn uses up some of what is left to do.** -/
theorem Transition.toDo_lt {turn : Turn} (h : Transition w f turn g) : g.toDo < f.toDo := by
  cases h with
  | @bring i e rest desk counters hi hoffer =>
      obtain ⟨-, hclerk, hqueue⟩ := Desk.offer_frame hoffer
      have hsum := sum_map_set (y := some rest) producerRank hi
      simp only [producerRank, List.length_cons] at hsum
      simp only [toDo, hclerk]
      omega
  | leave hi =>
      have hsum := sum_map_set (y := none) producerRank hi
      simp only [producerRank, List.length_nil] at hsum
      simp only [toDo]
      omega
  | @clerk now _ _ _ hwork =>
      cases hwork with
      | @enter e rest hclerk hqueue =>
          have hrank := clerkRank_afterEntry_le (f.desk.ledger.entry now e)
          have hwaiting : clerkRank .waiting = 1 := rfl
          simp only [toDo, hclerk, hqueue, List.length_cons, hwaiting]
          omega
      | close hclerk | store hclerk | storeCrash hclerk =>
          simp only [toDo, hclerk, clerkRank, List.length_nil]
          omega

/-- Where every call comes back, the clerk does not break. -/
theorem Chronicle.sound (hreturns : ∀ row t, (w.update row t).1.Returns)
    (h : Chronicle w (opened rows lists capacity s) log g) (text : String) :
    g.desk.clerk ≠ .broken text := by
  induction h with
  | refl => simp [opened, Desk.opened]
  | @tail _ f _ _ _ hstep ih =>
      cases step_transition hstep with
      | bring _ hoffer => exact (Desk.offer_frame hoffer).2.1 ▸ ih
      | leave => exact ih
      | clerk hwork =>
          cases hwork with
          | enter => exact Desk.afterEntry_ne_broken _ _
          | close | store => simp
          | @storeCrash row text t hclerk hreply =>
              have hback := hreturns row f.world
              rw [hreply] at hback
              exact absurd rfl (hback text)

/-- **The clerk comes to close the desk**, whatever was done so far, where every call comes back. -/
theorem Chronicle.closes (hreturns : ∀ row t, (w.update row t).1.Returns)
    (h : Chronicle w (opened rows lists capacity s) log g) :
    ∃ more e, Chronicle w (opened rows lists capacity s) (log ++ more) e ∧
      e.desk.clerk = .closed := by
  induction hleft : g.toDo using Nat.strong_induction_on generalizing log g with
  | _ left ih =>
      by_cases hclosed : g.desk.clerk = .closed
      · exact ⟨[], g, by rwa [List.append_nil], hclosed⟩
      · have hover : g.desk.isOver = false := by
          have hsound := h.sound hreturns
          cases hclerk : g.desk.clerk <;> simp_all [Desk.isOver]
        obtain ⟨turn, hturn⟩ := h.enabled hover default
        obtain ⟨next, hstep⟩ := Option.isSome_iff_exists.mp hturn
        have hless := (step_transition hstep).toDo_lt
        obtain ⟨more, e, he, hend⟩ := ih _ (hleft ▸ hless) (h.tail hstep) rfl
        exact ⟨_, e, by rwa [List.append_assoc] at he, hend⟩

end Mailshot.Feed
