import Mailshot.Desk
import Mailshot.Proofs.Deed

/-!
# What happens at a desk

An event that comes in waits in the queue.  The clerk enters the next one, stores the row that came of
it, or closes the desk once nobody holds it.  Whoever brings events, this is all that can happen.

* `Desk.offer_queue`, `Desk.offer_frame`: what an event that comes in changes;
* `Desk.Working`: every piece of work of the clerk;
* `Desk.work_working`: a turn of the clerk is one of them.
-/

namespace Mailshot

/-- The row that the clerk is about to store. -/
def Clerk.row? : Clerk → Option Campaign
  | .storing row => some row
  | _ => none

@[simp] theorem Clerk.row?_waiting : waiting.row? = none := rfl

@[simp] theorem Clerk.row?_storing (row : Campaign) : (storing row).row? = some row := rfl

@[simp] theorem Clerk.row?_closed : closed.row? = none := rfl

namespace Desk

@[simp] theorem row?_afterEntry (e : Entry) : (afterEntry e).row? = e.row := by
  cases hrow : e.row <;> simp [afterEntry, hrow]

theorem afterEntry_ne_closed (e : Entry) : afterEntry e ≠ .closed := by
  cases hrow : e.row <;> simp [afterEntry, hrow]

theorem afterEntry_ne_broken (e : Entry) (text : String) : afterEntry e ≠ .broken text := by
  cases hrow : e.row <;> simp [afterEntry, hrow]

/-- An event that comes to a desk with a clerk waits in the queue. -/
theorem offer_queue {d desk : Desk} {e : Event} {counters : Counters}
    (hclerk : d.isOver = false) (h : d.offer e = some (desk, counters)) :
    desk = { d with queue := d.queue ++ [e] } := by
  by_cases hroom : d.queue.length < d.capacity <;>
    simp only [offer, hclerk, hroom, Bool.false_eq_true, if_false, if_true, Option.some.injEq,
      Prod.mk.injEq, reduceCtorEq] at h
  exact h.1.symm

/-- An event that comes in is not entered yet. -/
theorem offer_ledger {d desk : Desk} {e : Event} {counters : Counters}
    (h : d.offer e = some (desk, counters)) : desk.ledger = d.ledger := by
  cases hover : d.isOver with
  | false => rw [offer_queue hover h]
  | true =>
      simp only [offer, hover, if_true, Option.some.injEq, Prod.mk.injEq] at h
      rw [h.1]

/-- An event that comes in takes one place in the queue at most, and nothing else. -/
theorem offer_frame {d desk : Desk} {e : Event} {counters : Counters}
    (h : d.offer e = some (desk, counters)) :
    desk.capacity = d.capacity ∧ desk.clerk = d.clerk ∧
      desk.queue.length ≤ d.queue.length + 1 := by
  cases hover : d.isOver with
  | false =>
      rw [offer_queue hover h]
      simp
  | true =>
      simp only [offer, hover, if_true, Option.some.injEq, Prod.mk.injEq] at h
      simp [← h.1]

/-- Every piece of work of the clerk, with the desk after it, what it counts, and the world. -/
inductive Working {σ : Type} (w : World σ) (now : Instant) (held : Bool) (d : Desk) (s : σ) :
    Desk → Counters → σ → Prop where
  | enter {e : Event} {rest : List Event} (hclerk : d.clerk = .waiting)
      (hqueue : d.queue = e :: rest) :
      Working w now held d s
        { d with
          queue := rest
          ledger := d.ledger.enter now e
          clerk := afterEntry (d.ledger.entry now e) }
        { updatesApplied := if (d.ledger.entry now e).changed then 1 else 0 } s
  | close (hclerk : d.clerk = .waiting) (hqueue : d.queue = []) (hheld : held = false) :
      Working w now held d s { d with clerk := .closed } {} s
  | store {row : Campaign} {reply : Reply Unit} {t : σ} (hclerk : d.clerk = .storing row)
      (hreply : w.update row s = (reply, t)) (hreturns : reply.Returns) :
      Working w now held d s { d with clerk := .waiting }
        { persistErrors := if reply.isOk then 0 else 1 } t
  | storeCrash {row : Campaign} {text : String} {t : σ} (hclerk : d.clerk = .storing row)
      (hreply : w.update row s = (.crash text, t)) :
      Working w now held d s { d with queue := [], clerk := .broken text } {} t

/-- **A turn of the clerk is a piece of work.** -/
theorem work_working {σ : Type} {w : World σ} {now : Instant} {held : Bool} {d desk : Desk} {s t : σ}
    {counters : Counters} (h : d.work w now held s = some (desk, counters, t)) :
    Working w now held d s desk counters t := by
  unfold work at h
  cases hclerk : d.clerk with
  | waiting =>
      cases hqueue : d.queue with
      | cons e rest =>
          simp only [hclerk, hqueue, Option.some.injEq, Prod.mk.injEq] at h
          obtain ⟨rfl, rfl, rfl⟩ := h
          exact .enter hclerk hqueue
      | nil =>
          cases held <;>
            simp only [hclerk, hqueue, if_true, Bool.false_eq_true, if_false, Option.some.injEq,
              Prod.mk.injEq, reduceCtorEq] at h
          obtain ⟨rfl, rfl, rfl⟩ := h
          have hclose : Working w now false d s _ _ s := .close hclerk hqueue rfl
          simpa only [hqueue] using hclose
  | storing row =>
      cases hreply : w.update row s with
      | mk reply u =>
          cases reply <;>
            simp only [hclerk, hreply, Option.some.injEq, Prod.mk.injEq] at h <;>
            obtain ⟨rfl, rfl, rfl⟩ := h
          · exact .store hclerk hreply (by simp [Reply.Returns])
          · exact .store hclerk hreply (by simp [Reply.Returns])
          · exact .storeCrash hclerk hreply
  | closed | broken => simp [hclerk] at h

end Desk

end Mailshot
