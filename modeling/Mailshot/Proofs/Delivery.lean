import Mailshot.Proofs.Run.Roster
import Mailshot.Proofs.Worker.Delivery

/-!
# Who gets mail

A campaign whose tenant, audience and content are known is mailed out as planned, whatever else goes
on in the run and whichever calls the provider refuses: variant after variant, and within a variant
piece after piece of its bucket.  So nobody is passed over between two calls and nobody is mailed
twice.

* `Run.Chronicle.posted`: the deeds of such a campaign, once the run is over;
* `Run.Chronicle.delivery`: its calls to the provider.
-/

namespace Mailshot.Run

variable {σ : Type} {room : Mailroom σ} {due : List Campaign} {capacity : Nat} {s : σ} {r : Run σ}
  {past : List (Turn × Deed)} {i : Nat} {c : Campaign} {tenant : Tenant}
  {audience bodies : List String} {resolution : List Deed}

/-- Once the run is over, a campaign that was resolved has posted all calls of its plan, unless a
call to the provider crashed. -/
theorem Chronicle.posted (h : Chronicle room (opened due capacity s) past r)
    (hfinished : r.foreman = .finished) (hc : due[i]? = some c)
    (hresolve : Worker.Resolves room c tenant audience bodies resolution)
    (hbeginning : resolution <+: deedsOf i past)
    (hsent : ∀ p ∈ Deed.mails (deedsOf i past), p.2.Returns) :
    ∃ sent, Worker.plan room c tenant audience bodies = sent.map (·.1) ∧
      deedsOf i past = resolution ++ Worker.posts c.id (Worker.opening audience) sent ∧
      Deed.mails (deedsOf i past) = sent.map (fun p => (p.1.mail, p.2)) ∧
      r.workers[i]? =
        some ⟨c, .ended (.mailed (Worker.summary c ((Worker.opening audience).after sent)))⟩ := by
  obtain ⟨o, hk⟩ := h.ended_of_finished hfinished hc
  have hcourse : Worker.Course room c (deedsOf i past) (.ended o) := h.course hk
  obtain ⟨sent, hplan, hdeeds, rfl⟩ := hcourse.posted hresolve hbeginning hsent
  refine ⟨sent, hplan, hdeeds, ?_, hk⟩
  rw [hdeeds, Deed.mails_append, hresolve.mails_eq_nil, Worker.mails_posts, List.nil_append]

/-- **The calls to the provider for a campaign.**  Where the tenant, the audience and the bodies of
all variants were found, the calls are those for each variant in order, and for each piece of its
bucket in order, whatever replies come back.  Together they reach the beginning of the audience, and
all of it where the ratios come to a hundred and shares are exact. -/
theorem Chronicle.delivery (h : Chronicle room (opened due capacity s) past r)
    (hfinished : r.foreman = .finished) (hc : due[i]? = some c)
    (hresolve : Worker.Resolves room c tenant audience bodies resolution)
    (hbeginning : resolution <+: deedsOf i past)
    (hsent : ∀ p ∈ Deed.mails (deedsOf i past), p.2.Returns) :
    bodies.length = c.variants.length ∧
      (Share.partition audience c.ratios).length = c.variants.length ∧
      (Deed.mails (deedsOf i past)).map (·.1) =
        (c.variants.zip (bodies.zip (Share.partition audience c.ratios))).flatMap
          (fun (v, html, bucket) =>
            (Batch.chunks (min (max room.settings.maxRecipientsPerSend 1) 10) bucket).map
              fun piece => ⟨v.id, tenant.fromEmail.getD room.sender, piece, v.subject, html⟩) ∧
      (∀ p ∈ Deed.mails (deedsOf i past), p.1.recipients ≠ [] ∧
        p.1.recipients.length ≤ min (max room.settings.maxRecipientsPerSend 1) 10) ∧
      ((Deed.mails (deedsOf i past)).flatMap (·.1.recipients)) <+: audience ∧
      (100 ≤ c.ratios.sum → (∀ ratio ∈ c.ratios, audience.length * ratio ≤ 2 ^ 53) →
        (Deed.mails (deedsOf i past)).flatMap (·.1.recipients) = audience) := by
  obtain ⟨sent, hplan, -, hmails, -⟩ := h.posted hfinished hc hresolve hbeginning hsent
  have hbodies := hresolve.length_bodies
  have hbuckets : (Share.partition audience c.ratios).length = c.variants.length := by
    simp [Campaign.ratios]
  have hplanned : (Deed.mails (deedsOf i past)).map (·.1) =
      (Worker.plan room c tenant audience bodies).map (·.mail) := by
    simp [hmails, hplan]
  have hreached : (Deed.mails (deedsOf i past)).flatMap (·.1.recipients) =
      (Share.partition audience c.ratios).flatten := by
    rw [hmails, Worker.recipients_sent hbodies hplan]
  refine ⟨hbodies, hbuckets, ?_, ?_, ?_, ?_⟩
  · rw [hplanned, Worker.mail_plan]
    rfl
  · intro p hp
    rw [hmails] at hp
    obtain ⟨q, hq, rfl⟩ := List.mem_map.mp hp
    have hmem : q.1 ∈ Worker.plan room c tenant audience bodies := by
      rw [hplan]
      exact List.mem_map_of_mem hq
    exact Worker.recipients_of_mem_plan hmem
  · rw [hreached, Share.flatten_partition]
    exact List.take_prefix _ _
  · intro hsum hratios
    rw [hreached]
    exact Share.partition_covers hsum hratios

end Mailshot.Run

namespace Mailshot.Sample

/-- How spring is resolved. -/
def resolution : List Deed :=
  [.call (.tenant spring.id spring.tenant (.ok acme)),
    .call (.page spring.id ⟨acme, spring.segment, "", 2⟩ (.ok firstPage)),
    .call (.page spring.id ⟨acme, spring.segment, "2", 2⟩ (.ok lastPage)),
    .report (.running spring.id 3),
    .call (.template spring.id acme (.ofNat 3) (.ok (template (.ofNat 3)))),
    .call (.template spring.id acme (.ofNat 4) (.ok (template (.ofNat 4)))),
    .call (.template spring.id acme (.ofNat 3) (.ok (template (.ofNat 3))))]

theorem resolves :
    Worker.Resolves room spring acme audience ["<b>", "<b>", "<b>"] resolution := by
  have hbody : ∀ id, Body.decode (template id).body = .ok "<b>" := by
    intro id
    show Body.decode "PGI+" = .ok "<b>"
    decide +kernel
  refine ⟨resolution.take 3, resolution.drop 4, ⟨[firstPage], lastPage, by decide, rfl, rfl, rfl⟩,
    ?_, rfl⟩
  exact ((Worker.Reads.nil.snoc (hbody _)).snoc (hbody _)).snoc (hbody _)

end Mailshot.Sample

namespace Mailshot.Run

/-- Spring reaches its three members, although the second call is refused. -/
theorem Chronicle.delivery_of_spring :
    (Deed.mails (deedsOf 0 Sample.run.1)).flatMap (·.1.recipients) = Sample.audience := by
  have hspring : Sample.due[0]? = some Sample.spring := rfl
  have h := Sample.chronicle.delivery (by decide +kernel) hspring Sample.resolves
    (by decide +kernel) (by decide +kernel)
  exact h.2.2.2.2.2 (by decide) (by decide)

end Mailshot.Run
