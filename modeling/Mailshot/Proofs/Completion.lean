import Mailshot.Proofs.Delivery
import Mailshot.Proofs.Progress
import Mailshot.Proofs.Run.Desk

/-!
# How progress ends

A call that closes the campaign is said to complete its progress whatever the count is.  Where the
buckets cover the audience that never makes a difference: after each call the report is the part of
the audience mailed to so far, rounded down, so it comes to a hundred with the last call and not
before, also where the last variants are left without members.

* `Worker.paced`: calls, each followed by a report of what was handed over so far;
* `Worker.posts_eq_paced`: the deeds of a plan that covers the audience;
* `Run.Chronicle.completion`: the reports and the final row of a campaign that was mailed out.
-/

namespace Mailshot

namespace Worker

/-- The number of recipients that calls were made for. -/
def handed (sent : List (Mail × Reply Unit)) : Nat :=
  (sent.map (·.1.recipients.length)).sum

/-- Calls, each followed by a report of the part of `n` members handed over so far, in percent,
rounded down. -/
def paced (owner : Uuid) (n : Nat) : Nat → List (Mail × Reply Unit) → List Deed
  | _, [] => []
  | before, (mail, reply) :: rest =>
    .start mail :: .call (.send owner mail reply) ::
      .report (.progress owner (100 * (before + mail.recipients.length) / n)) ::
      paced owner n (before + mail.recipients.length) rest

@[simp] theorem handed_nil : handed [] = 0 := rfl

@[simp] theorem handed_cons (p : Mail × Reply Unit) (rest : List (Mail × Reply Unit)) :
    handed (p :: rest) = p.1.recipients.length + handed rest := rfl

theorem handed_eq (sent : List (Mail × Reply Unit)) :
    handed sent = (sent.flatMap (·.1.recipients)).length := by
  simp [handed, List.length_flatMap]

/-- Calls with recipients reach somebody. -/
theorem handed_eq_zero {sent : List (Mail × Reply Unit)}
    (hmembers : ∀ p ∈ sent, p.1.recipients ≠ []) : handed sent = 0 ↔ sent = [] := by
  cases sent with
  | nil => simp
  | cons p rest =>
      have hpos : 0 < p.1.recipients.length :=
        List.length_pos_iff.mpr (hmembers p List.mem_cons_self)
      simp only [handed_cons, reduceCtorEq, iff_false]
      omega

@[simp] theorem handed_append (xs ys : List (Mail × Reply Unit)) :
    handed (xs ++ ys) = handed xs + handed ys := by
  simp [handed]

/-- **The deeds of a plan that covers the audience.**  Closing the campaign early would report too
much, but the call that closes it is the last one. -/
theorem posts_eq_paced {owner : Uuid} {n : Nat} {t : Tally} {sent : List (Mailing × Reply Unit)}
    (hsize : t.progress.segmentSize = n) (hsmall : n * 100 ≤ 2 ^ 53)
    (htotal : t.progress.attempted + handed (sent.map fun p => (p.1.mail, p.2)) = n)
    (hmembers : ∀ p ∈ sent, p.1.mail.recipients ≠ [])
    (hclosing : ∀ before p after, sent = before ++ p :: after → p.1.closing = true → after = []) :
    posts owner t sent =
      paced owner n t.progress.attempted (sent.map fun p => (p.1.mail, p.2)) := by
  induction sent generalizing t with
  | nil => rfl
  | cons p rest ih =>
      obtain ⟨m, reply⟩ := p
      simp only [List.map_cons, handed_cons] at htotal
      have hmember : 0 < m.mail.recipients.length :=
        List.length_pos_iff.mpr (hmembers (m, reply) List.mem_cons_self)
      have hpercent : (t.note m reply.isOk).2 =
          100 * (t.progress.attempted + m.mail.recipients.length) / n := by
        cases hlast : m.closing with
        | true =>
            obtain rfl := hclosing [] (m, reply) rest rfl hlast
            have hall : t.progress.attempted + m.mail.recipients.length = n := by simpa using htotal
            have hpos : 0 < n := by omega
            simp [Tally.note, Progress.record, hlast, hall, Nat.mul_div_cancel _ hpos]
        | false =>
            have hfit : 100 * n ≤ Share.limit := by
              simp only [Share.limit]
              omega
            have hpart : Progress.percent (t.progress.attempted + m.mail.recipients.length) n =
                100 * (t.progress.attempted + m.mail.recipients.length) / n :=
              Progress.percent_of_le (by omega) hfit
            simpa [Tally.note, Progress.record, hlast, hsize] using hpart
      have hrest := ih (t := (t.note m reply.isOk).1) hsize (by
        show t.progress.attempted + m.mail.recipients.length + _ = n
        omega) (fun p hp => hmembers p (List.mem_cons_of_mem _ hp)) (by
        intro before p after hsplit
        exact hclosing ((m, reply) :: before) p after (by rw [hsplit, List.cons_append]))
      rw [List.map_cons, posts, paced, hpercent, hrest]
      rfl

theorem paced_append (owner : Uuid) (n before : Nat) (xs ys : List (Mail × Reply Unit)) :
    paced owner n before (xs ++ ys) =
      paced owner n before xs ++ paced owner n (before + handed xs) ys := by
  induction xs generalizing before with
  | nil => rfl
  | cons p rest ih =>
      simp [paced, ih, Nat.add_assoc]

/-- Reports of progress change the progress of a row, to that of the last one, and nothing else. -/
theorem after_paced (c : Campaign) (owner : Uuid) (n before : Nat)
    (sent : List (Mail × Reply Unit)) :
    c.after (Deed.events (paced owner n before sent)) =
      { c with progress :=
          if sent = [] then c.progress else Campaign.cap (100 * (before + handed sent) / n) } := by
  induction sent using List.reverseRecOn with
  | nil => rfl
  | append_singleton sent p ih =>
      obtain ⟨mail, reply⟩ := p
      rw [paced_append, Deed.events_append, Campaign.after_append, ih]
      simp [paced, Campaign.after, Event.progress, Campaign.merge, Nat.add_assoc]

/-- Where all members were handed over, the row is left at full progress, or at the progress it had
where there are none. -/
theorem after_all (c : Campaign) (owner : Uuid) {n : Nat} {sent : List (Mail × Reply Unit)}
    (hall : handed sent = n) (hmembers : ∀ p ∈ sent, p.1.recipients ≠ []) :
    c.after (.running owner n :: Deed.events (paced owner n 0 sent)) =
      { c with
        status := .running
        segmentSize := n
        progress := if n = 0 then c.progress else 100 } := by
  have hnone : sent = [] ↔ n = 0 := by
    rw [← handed_eq_zero hmembers, hall]
  have hafter := after_paced (c.merge (Event.running owner n).delta) owner n 0 sent
  rw [hall] at hafter
  refine hafter.trans ?_
  by_cases hn : n = 0
  · simp [hnone, hn, Campaign.merge, Event.running]
  · have hpos : 0 < n := Nat.pos_of_ne_zero hn
    simp [hnone, hn, Campaign.merge, Event.running, Nat.mul_div_cancel _ hpos, Campaign.cap]

/-- A part comes to a hundred percent only where it is the whole. -/
theorem hundred_iff {a n : Nat} (hpos : 0 < n) (hle : a ≤ n) : 100 * a / n = 100 ↔ a = n := by
  rw [Nat.div_eq_iff hpos]
  omega

/-- Where calls with recipients reach all `n` members, the last one completes the progress and none
before it does. -/
theorem hundred_iff_last {n : Nat} {before after : List (Mail × Reply Unit)}
    {p : Mail × Reply Unit} (hall : handed (before ++ p :: after) = n)
    (hmembers : ∀ q ∈ before ++ p :: after, q.1.recipients ≠ []) :
    100 * handed (before ++ [p]) / n = 100 ↔ after = [] := by
  have hpos : 0 < p.1.recipients.length := List.length_pos_iff.mpr (hmembers p (by simp))
  have hafter : handed after = 0 ↔ after = [] :=
    handed_eq_zero fun q hq => hmembers q (by simp [hq])
  simp only [handed_append, handed_cons, handed_nil] at hall ⊢
  rw [hundred_iff (by omega) (by omega), ← hafter]
  omega

end Worker

namespace Run

variable {σ : Type} {room : Mailroom σ} {due : List Campaign} {capacity : Nat} {s : σ} {r : Run σ}
  {past : List (Turn × Deed)} {i : Nat} {c : Campaign} {tenant : Tenant}
  {audience bodies : List String} {resolution : List Deed}

/-- Once the run is over, a campaign that was resolved and whose plan covers the audience has made
its calls to the provider at an even pace. -/
theorem Chronicle.paced (h : Chronicle room (opened due capacity s) past r)
    (hfinished : r.foreman = .finished) (hc : due[i]? = some c)
    (hresolve : Worker.Resolves room c tenant audience bodies resolution)
    (hbeginning : resolution <+: deedsOf i past)
    (hsent : ∀ p ∈ Deed.mails (deedsOf i past), p.2.Returns)
    (hsmall : audience.length * 100 ≤ 2 ^ 53) (hsum : 100 ≤ c.ratios.sum)
    (hratios : ∀ ratio ∈ c.ratios, audience.length * ratio ≤ 2 ^ 53) :
    deedsOf i past =
        resolution ++ Worker.paced c.id audience.length 0 (Deed.mails (deedsOf i past)) ∧
      Worker.handed (Deed.mails (deedsOf i past)) = audience.length ∧
      (∀ p ∈ Deed.mails (deedsOf i past), p.1.recipients ≠ []) ∧
      ∃ summary, r.workers[i]? = some ⟨c, .ended (.mailed summary)⟩ := by
  obtain ⟨sent, hplan, hdeeds, hmails, hk⟩ := h.posted hfinished hc hresolve hbeginning hsent
  have hmember : ∀ p ∈ sent, p.1.mail.recipients ≠ [] := by
    intro p hp
    have hmem : p.1 ∈ Worker.plan room c tenant audience bodies := by
      rw [hplan]
      exact List.mem_map_of_mem hp
    exact (Worker.recipients_of_mem_plan hmem).1
  have hclosing : ∀ before p after, sent = before ++ p :: after → p.1.closing = true →
      after = [] := by
    intro before p after hsplit hlast
    rw [hsplit, List.map_append, List.map_cons] at hplan
    exact List.map_eq_nil_iff.mp (Batch.plan_closing hplan hlast)
  have hall : Worker.handed (Deed.mails (deedsOf i past)) = audience.length := by
    rw [Worker.handed_eq, hmails, Worker.recipients_sent hresolve.length_bodies hplan,
      Share.partition_covers hsum hratios]
  have htotal : 0 + Worker.handed (sent.map fun p => (p.1.mail, p.2)) = audience.length := by
    rw [← hmails, hall, Nat.zero_add]
  have hposts : Worker.posts c.id (Worker.opening audience) sent =
      Worker.paced c.id audience.length 0 (sent.map fun p => (p.1.mail, p.2)) :=
    Worker.posts_eq_paced rfl hsmall htotal hmember hclosing
  refine ⟨by rw [hmails, hdeeds, hposts], hall, ?_, _, hk⟩
  intro p hp
  rw [hmails] at hp
  obtain ⟨q, hq, rfl⟩ := List.mem_map.mp hp
  exact hmember q hq

/-- **How progress ends.**  Where the ratios come to a hundred and shares are exact, each call to the
provider is followed by one report, of the part of the audience mailed to so far in percent, rounded
down.  That is a hundred after the last call and not before.  The campaign is left running with the
size of its audience, at full progress, or at the progress it had where nobody is in the audience.
-/
theorem Chronicle.completion (hids : (due.map (·.id)).Nodup)
    (h : Chronicle room (opened due capacity s) past r) (hfinished : r.foreman = .finished)
    (hstored : Stored past) (hc : due[i]? = some c)
    (hresolve : Worker.Resolves room c tenant audience bodies resolution)
    (hbeginning : resolution <+: deedsOf i past)
    (hsent : ∀ p ∈ Deed.mails (deedsOf i past), p.2.Returns)
    (hsmall : audience.length * 100 ≤ 2 ^ 53) (hsum : 100 ≤ c.ratios.sum)
    (hratios : ∀ ratio ∈ c.ratios, audience.length * ratio ≤ 2 ^ 53) :
    deedsOf i past =
        resolution ++ Worker.paced c.id audience.length 0 (Deed.mails (deedsOf i past)) ∧
      (∀ before p after, Deed.mails (deedsOf i past) = before ++ p :: after →
        (100 * Worker.handed (before ++ [p]) / audience.length = 100 ↔ after = [])) ∧
      (audience = [] → Deed.mails (deedsOf i past) = []) ∧
      ∃ row, r.desk.ledger.row? c.id = some row ∧ row.status = .running ∧
        row.segmentSize = audience.length ∧
        row.progress = if audience = [] then c.progress else 100 := by
  obtain ⟨hpaced, hall, hmembers, summary, hk⟩ :=
    h.paced hfinished hc hresolve hbeginning hsent hsmall hsum hratios
  refine ⟨hpaced, ?_, ?_, ?_⟩
  · intro before p after hsplit
    rw [hsplit] at hall hmembers
    exact Worker.hundred_iff_last hall hmembers
  · rintro rfl
    exact (Worker.handed_eq_zero hmembers).mp hall
  · obtain ⟨row, hrow, htimeless⟩ := h.final_row hids hstored hfinished hk
    have hevents : Deed.events (deedsOf i past) = .running c.id audience.length ::
        Deed.events (Worker.paced c.id audience.length 0 (Deed.mails (deedsOf i past))) := by
      refine (congrArg Deed.events hpaced).trans ?_
      rw [Deed.events_append, hresolve.events_eq, List.singleton_append]
    have hfinal : row.timeless =
        { c.timeless with
          status := .running
          segmentSize := audience.length
          progress := if audience.length = 0 then c.progress else 100 } := by
      rw [htimeless, hevents]
      exact (congrArg (Campaign.after _) (List.append_nil _)).trans
        (Worker.after_all c.timeless c.id hall hmembers)
    have hstatus : row.timeless.status = .running := by rw [hfinal]
    have hsize : row.timeless.segmentSize = audience.length := by rw [hfinal]
    have hprogress : row.timeless.progress = if audience = [] then c.progress else 100 := by
      rw [hfinal]
      simp
    exact ⟨row, hrow, hstatus, hsize, hprogress⟩

/-- Spring comes to a hundred percent, although its second call is refused and nobody is left for its
third variant. -/
theorem Chronicle.completion_of_spring :
    ∃ row, Sample.run.2.desk.ledger.row? Sample.spring.id = some row ∧ row.status = .running ∧
      row.segmentSize = 3 ∧ row.progress = 100 := by
  have hspring : Sample.due[0]? = some Sample.spring := rfl
  obtain ⟨-, -, -, hrow⟩ := Sample.chronicle.completion (by decide) (by decide +kernel)
    (by decide +kernel) hspring Sample.resolves (by decide +kernel) (by decide +kernel) (by decide)
    (by decide) (by decide)
  exact hrow

end Run

end Mailshot
