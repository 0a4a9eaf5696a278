import Mailshot.Proofs.Completion
import Mailshot.Proofs.Count
import Mailshot.Proofs.Files
import Mailshot.Proofs.Worker.Setback

/-!
# What the provider counts

The provider takes a call with one to ten recipients, and no other.  What it counts is what it took:
the calls, and by variant their recipients.

* `Provider.refusal?_eq_none`: which calls are taken;
* `Provider.send_cases`: what a call does to the counts;
* `Office.provider_of_history`: the counts after any calls;
* `Call.length_posted`, `Call.posted_variant`: the mail of all campaigns, told from that of each.
-/

namespace Mailshot

namespace Provider

/-- **Calls with one to ten recipients are taken.** -/
theorem refusal?_eq_none {recipients : Nat} :
    refusal? recipients = none ↔ 0 < recipients ∧ recipients ≤ batchCap := by
  unfold refusal?
  by_cases hnobody : recipients = 0
  · simp [hnobody]
  · by_cases hmany : batchCap < recipients
    · simp [hnobody, hmany]
    · simpa [hnobody, hmany] using ⟨Nat.pos_of_ne_zero hnobody, Nat.not_lt.mp hmany⟩

/-- **A call that is refused changes nothing**, and one that is taken counts once, and its recipients
for its variant. -/
theorem send_cases (p : Provider) (mail : Mail) :
    (∃ cause, refusal? mail.recipients.length = some cause ∧ p.send mail = (.error cause, p)) ∨
      refusal? mail.recipients.length = none ∧ (p.send mail).1 = .ok () ∧
        (p.send mail).2.requests = p.requests + 1 ∧
        ∀ id, (p.send mail).2.sentCount id =
          p.sentCount id + if mail.variant = id then mail.recipients.length else 0 := by
  unfold send
  cases hrefusal : refusal? mail.recipients.length with
  | some cause => exact .inl ⟨cause, rfl, rfl⟩
  | none =>
      refine .inr ⟨rfl, rfl, rfl, fun id => ?_⟩
      by_cases hid : mail.variant = id
      · simp [sentCount, Table.get?_insert, hid]
      · simp [sentCount, Table.get?_insert, hid]

end Provider

namespace Office

/-- A call that sends no mail leaves the provider alone. -/
theorem provider_of_answers {o u : Office} {made : Call} (h : world.Answers o made u)
    (hsilent : Call.posted [made] = []) : u.provider = o.provider := by
  cases made with
  | send => cases hsilent
  | tenant | page | template =>
      obtain ⟨-, rfl⟩ := Prod.mk.inj h
      rfl
  | update row reply =>
      have hupdate : o.update row = (reply, u) := h
      unfold Office.update at hupdate
      split at hupdate <;> exact (Prod.mk.inj hupdate).2 ▸ rfl

/-- What a call with mail does to the provider, and how it comes back. -/
theorem provider_of_send {o u : Office} {owner : Uuid} {mail : Mail} {reply : Reply Unit}
    (h : world.Answers o (.send owner mail reply) u) :
    reply = (Provider.refusal? mail.recipients.length).elim (.ok ()) .fault ∧
      u.provider.requests = o.provider.requests + (if reply.isOk then 1 else 0) ∧
      ∀ id, u.provider.sentCount id = o.provider.sentCount id +
        if reply.isOk && mail.variant = id then mail.recipients.length else 0 := by
  have hreply : reply = .ofExcept (o.provider.send mail).1 := (Prod.mk.inj h).1.symm
  have hprovider : u.provider = (o.provider.send mail).2 :=
    congrArg Office.provider (Prod.mk.inj h).2.symm
  rw [hreply, hprovider]
  rcases o.provider.send_cases mail with
    ⟨cause, hrefusal, htaken⟩ | ⟨hrefusal, htaken, hcount, hvariant⟩
  · simp [hrefusal, htaken, Reply.ofExcept, Reply.isOk]
  · simp [hrefusal, htaken, hcount, hvariant, Reply.ofExcept, Reply.isOk]

/-- **The counts after any calls**: those at the start, and what was taken since. -/
theorem provider_of_history {o u : Office} {calls : List Call} (h : world.History o calls u) :
    (∀ p ∈ Call.posted calls,
        p.2 = (Provider.refusal? p.1.recipients.length).elim (.ok ()) .fault) ∧
      u.provider.requests = o.provider.requests + (Call.posted calls).countP (·.2.isOk) ∧
      ∀ id, u.provider.sentCount id = o.provider.sentCount id +
        Worker.handed ((Call.posted calls).filter fun p => p.2.isOk && p.1.variant = id) := by
  induction calls generalizing o with
  | nil =>
      obtain rfl : u = o := h
      simp [Call.posted]
  | cons made rest ih =>
      obtain ⟨t, hmade, hrest⟩ := h
      obtain ⟨hreplies, hrequests, hsent⟩ := ih hrest
      cases made with
      | tenant | page | template | update =>
          rw [← provider_of_answers hmade rfl]
          exact ⟨hreplies, hrequests, hsent⟩
      | send owner mail reply =>
          obtain ⟨hreply, hone, hvariant⟩ := provider_of_send hmade
          have hposted : Call.posted (.send owner mail reply :: rest) =
              (mail, reply) :: Call.posted rest := rfl
          rw [hposted]
          refine ⟨List.forall_mem_cons.mpr ⟨hreply, hreplies⟩, ?_, fun id => ?_⟩
          · rw [hrequests, hone, List.countP_cons, Nat.add_assoc, Nat.add_comm (ite _ _ _)]
          · rw [hsent, hvariant, List.filter_cons]
            split
            · rw [Worker.handed_cons, Nat.add_assoc]
            · rw [Nat.add_zero]

end Office

namespace Call

/-- Mail is handed over by the worker of one campaign. -/
theorem mem_posted_of_owner {calls : List Call} {owner : Uuid} {mail : Mail} {reply : Reply Unit}
    (h : .send owner mail reply ∈ calls) : (mail, reply) ∈ posted (callsFor owner calls) :=
  List.mem_filterMap.mpr ⟨_, List.mem_filter.mpr ⟨h, by simp [isUpdate, Call.owner]⟩, rfl⟩

/-- **The mail of all campaigns is that of each**, one after another. -/
theorem length_posted {calls : List Call} {ids : List Uuid} (hids : ids.Nodup)
    (howner : ∀ made ∈ calls, made.owner ∈ ids) :
    (posted calls).length = (ids.map fun id => (posted (callsFor id calls)).length).sum := by
  let owners : List Uuid := (mails calls).map (·.1)
  have hknown : owners ⊆ ids := by
    intro id hid
    obtain ⟨⟨owner, mail, reply⟩, hmail, rfl⟩ := List.mem_map.mp hid
    obtain ⟨made, hmade, hsend⟩ := List.mem_filterMap.mp hmail
    cases made with
    | send owner mail reply =>
        obtain ⟨rfl, -⟩ := Prod.mk.inj (Option.some.inj hsend)
        exact howner _ (List.mem_reverse.mp hmade)
    | _ => cases hsend
  have hlength : owners.length = (posted calls).length := by
    simp only [owners, mails, posted, List.length_map, List.length_filterMap_eq_countP,
      List.countP_reverse]
    refine List.countP_congr fun made _ => ?_
    cases made <;> simp
  have hcount : ∀ id, owners.count id = (posted (callsFor id calls)).length := by
    intro id
    simp only [owners, mails, posted, callsFor, List.map_filterMap, List.count_filterMap,
      List.length_filterMap_eq_countP, List.countP_filter, List.countP_reverse]
    refine List.countP_congr fun made _ => ?_
    cases made with
    | send owner => by_cases hid : owner = id <;> simp [isUpdate, Call.owner, hid]
    | _ => simp [isUpdate]
  rw [← hlength, length_eq_sum_count hids hknown]
  exact congrArg List.sum (List.map_congr_left fun id _ => hcount id)

/-- Mail for a variant that belongs to one campaign is mail of that campaign. -/
theorem posted_variant {calls : List Call} {id variant : Uuid}
    (hown : ∀ owner mail reply, .send owner mail reply ∈ calls → mail.variant = variant → owner = id) :
    (posted calls).filter (·.1.variant = variant) =
      (posted (callsFor id calls)).filter (·.1.variant = variant) := by
  rw [posted, posted, callsFor, List.filter_filterMap, List.filter_filterMap, List.filterMap_filter]
  refine List.filterMap_congr fun made hmade => ?_
  cases made with
  | send owner mail reply =>
      by_cases hvariant : mail.variant = variant
      · simp [isUpdate, Call.owner, hown owner mail reply hmade hvariant]
      · simp [Option.filter, hvariant]
  | _ => simp [isUpdate]

end Call

end Mailshot
