import Mailshot.Proofs.Store.Supplies
import Mailshot.Proofs.Worker.Setback

/-!
# What a store makes of a campaign

A worker that gets its answers from a store does the same in every run, up to how its audience comes
in pages and its mail goes out in batches.  Told recipient by recipient the mail is the same, and so is
the row at the end: the part of the audience that is reached is reported last, or a hundred percent
where somebody is left for the last variant.

* `Store.letters`: what each recipient gets;
* `Store.settled`: the row at the end;
* `Worker.Course.settled`: a worker that has ended left both.
-/

namespace Mailshot

namespace Supplies

/-- The variants, each with its HTML and its bucket. -/
def lots (has : Supplies) (c : Campaign) : List (Variant × String × List String) :=
  Worker.lots c has.audience has.bodies

/-- What each recipient gets, in order. -/
def letters (has : Supplies) (c : Campaign) (sender : String) : List Mail :=
  (has.lots c).flatMap fun (v, html, bucket) => bucket.map fun address =>
    ⟨v.id, has.tenant.fromEmail.getD sender, [address], v.subject, html⟩

/-- The progress that is told last, where somebody gets mail. -/
def lastPercent (has : Supplies) (c : Campaign) : Option Nat :=
  let reached := (has.lots c).flatMap (·.2.2)
  if reached = [] then none
  else some (if Batch.reachesLast (has.lots c) then 100
    else Progress.percent reached.length has.audience.length)

end Supplies

namespace Store

/-- What each recipient of a campaign gets, with the sender for tenants that have none. -/
def letters (s : Store) (sender : String) (c : Campaign) : List Mail :=
  match s.supplies c with
  | .ok has => has.letters c sender
  | .error _ => []

/-- The row that a campaign is left with, apart from the time of change. -/
def settled (s : Store) (c : Campaign) : Campaign :=
  match s.supplies c with
  | .ok has =>
    { c.timeless with
      status := .running
      segmentSize := has.audience.length
      progress := (has.lastPercent c).elim c.progress Campaign.cap }
  | .error lack =>
    { c.timeless with
      status := .failed
      segmentSize := lack.size.getD c.segmentSize
      failureReason := some lack.cause.message }

/-- Stores with the same content make the same of a campaign. -/
theorem Alike.letters {s t : Store} (h : s.Alike t) (sender : String) (c : Campaign) :
    t.letters sender c = s.letters sender c := by
  simp only [Store.letters, h.supplies]

theorem Alike.settled {s t : Store} (h : s.Alike t) (c : Campaign) : t.settled c = s.settled c := by
  simp only [Store.settled, h.supplies]

end Store

namespace Worker

variable {σ : Type} {room : Mailroom σ} {c : Campaign} {s : Store} {deeds resolution : List Deed}
  {sent : List (Mailing × Reply Unit)} {has : Supplies}

/-- Calls made as planned bring the recipients what is meant for them. -/
theorem letters_sent
    (hplan : plan room c has.tenant has.audience has.bodies = sent.map (·.1)) :
    (sent.map (·.1.mail)).flatMap Mail.letters = has.letters c room.sender := by
  have hmails : sent.map (·.1.mail) =
      (plan room c has.tenant has.audience has.bodies).map (·.mail) := by
    rw [hplan, List.map_map]
    rfl
  rw [hmails, mail_plan, List.flatMap_assoc]
  simp only [Batch.letters_mailsOf (batchSize_pos room.settings)]
  rfl

/-- The number of recipients of a plan is that of all members in its buckets. -/
theorem handed_sent (hplan : plan room c has.tenant has.audience has.bodies = sent.map (·.1)) :
    handed (sent.map fun p => (p.1.mail, p.2)) = ((has.lots c).flatMap (·.2.2)).length := by
  have hreached := recipients_lots room c has.tenant has.audience has.bodies
  rw [hplan, List.map_map, Batch.recipients, List.flatMap_map, ← List.flatMap_def] at hreached
  rw [handed_eq, List.flatMap_map]
  exact congrArg List.length hreached

/-- The progress that is told last is settled by the buckets. -/
theorem getLast?_percents_sent
    (hplan : plan room c has.tenant has.audience has.bodies = sent.map (·.1)) :
    (percents (opening has.audience) sent).getLast? = has.lastPercent c := by
  have hlast : (plan room c has.tenant has.audience has.bodies).getLast?.map (·.closing) = _ :=
    Batch.getLast?_plan (batchSize_pos room.settings) (room.senderFor has.tenant) (has.lots c)
  rw [hplan] at hlast
  rw [getLast?_percents_eq, handed_sent hplan, Supplies.lastPercent]
  cases hend : (sent.map (·.1)).getLast? with
  | none =>
      rw [hend, Option.map_none] at hlast
      have hnone : (has.lots c).flatMap (·.2.2) = [] := by
        by_contra hsome
        rw [if_neg hsome] at hlast
        cases hlast
      simp [hnone]
  | some m =>
      rw [hend, Option.map_some] at hlast
      split at hlast
      · cases hlast
      · next hsome =>
          have hclosing : m.closing = Batch.reachesLast (has.lots c) := Option.some.inj hlast
          simp [hsome, hclosing, opening]

/-- The row after the reports of a campaign that was mailed out. -/
theorem after_posts (hplan : plan room c has.tenant has.audience has.bodies = sent.map (·.1))
    (hresolve : Resolves room c has.tenant has.audience has.bodies resolution) :
    c.timeless.after (Deed.events (resolution ++ posts c.id (opening has.audience) sent)) =
      { c.timeless with
        status := .running
        segmentSize := has.audience.length
        progress := (has.lastPercent c).elim c.progress Campaign.cap } := by
  rw [Deed.events_append, hresolve.events_eq, events_posts, Campaign.after_append,
    Campaign.after_progress, getLast?_percents_sent hplan]
  cases has.lastPercent c <;> rfl

/-- **A worker that gets its answers from a store** leaves what the store makes of its campaign, and
does not break. -/
theorem Course.settled {o : Outcome} (h : Course room c deeds (.ended o)) (htold : Told s deeds)
    (hfit : s.Fits) :
    ((Deed.mails deeds).map (·.1)).flatMap Mail.letters = s.letters room.sender c ∧
      c.timeless.after (Deed.events deeds) = s.settled c ∧ ∀ text, o ≠ .broken text := by
  rcases h.supplied htold hfit with
    ⟨⟨size, cause⟩, hlack, rfl, hmails, hevents⟩ |
      ⟨has, resolution, sent, hhas, hresolve, hplan, rfl, rfl⟩
  · refine ⟨?_, ?_, by simp⟩
    · simp [hmails, Store.letters, hlack]
    · rw [hevents, Store.settled, hlack]
      cases size <;> rfl
  · refine ⟨?_, ?_, by simp⟩
    · rw [Deed.mails_append, hresolve.mails_eq_nil, mails_posts, List.nil_append, List.map_map,
        Store.letters, hhas]
      exact letters_sent hplan
    · rw [after_posts hplan hresolve, Store.settled, hhas]

end Worker

end Mailshot
