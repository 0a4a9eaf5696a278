import Mailshot.Proofs.Body
import Mailshot.Proofs.Provider
import Mailshot.Proofs.Rounds
import Mailshot.Proofs.Run.Stocked
import Mailshot.Proofs.Share

/-!
# The whole office

A store and a provider together deliver what a campaign is meant to deliver.  The store names pages by
offsets that it can read back, the batches are no larger than the provider takes, and a body that was
stored from HTML gives that HTML again.  So where a store has what its due campaigns need, nothing
fails, and the counts of the provider tell the buckets.

* `Store.Ready`: the store has all that a campaign needs;
* `Store.Ready.supplies`: it has the members of the segment and the HTML of each variant, then;
* `Store.Mailed`: the calls for the campaign are the mail of its plan;
* `Run.Chronicle.mails_of_ready`, `Run.Chronicle.mailed_of_ready`: a campaign that the store is ready
  for is mailed out;
* `Office.taken_of_mailed`, `Office.requests_of_mailed`, `Office.gained_of_mailed`: what the provider
  counts of it;
* `Office.all_mailed`: what a dispatch leaves with the provider and on file.
-/

namespace Mailshot

namespace Store

/-- The members of a campaign's segment. -/
def members (s : Store) (c : Campaign) : List String :=
  (s.segments.get? c.segment).getD []

/-- The members of a campaign's segment, shared out among its variants. -/
def buckets (s : Store) (c : Campaign) : List (List String) :=
  Share.partition (s.members c) c.ratios

/-- The calls that it takes to reach all buckets. -/
def callsNeeded (s : Store) (batchSize : Nat) (c : Campaign) : Nat :=
  ((s.buckets c).map fun bucket => (bucket.length + batchSize - 1) / batchSize).sum

/-- **The store has all that a campaign needs**: its tenant, its segment, and for each variant a
template that was stored from HTML for the tenant. -/
structure Ready (s : Store) (c : Campaign) : Prop where
  tenant : ∃ tenant, s.tenants.get? c.tenant = some tenant
  segment : ∃ members, s.segments.get? c.segment = some members
  templates : ∀ v ∈ c.variants, ∃ name html,
    s.templates.get? v.template = some (.ofHtml v.template c.tenant name html)

variable {s : Store} {c : Campaign}

/-- There is HTML for variants whose templates were stored from HTML. -/
theorem exists_bodies {tenant : Tenant} {variants : List Variant}
    (h : ∀ v ∈ variants, ∃ name html,
      s.templates.get? v.template = some (.ofHtml v.template tenant.id name html)) :
    ∃ bodies, s.bodies tenant variants = .ok bodies := by
  induction variants with
  | nil => exact ⟨[], rfl⟩
  | cons v rest ih =>
      obtain ⟨⟨name, html, htemplate⟩, hrest⟩ := List.forall_mem_cons.mp h
      obtain ⟨bodies, hbodies⟩ := ih hrest
      have hhtml : s.html tenant v.template = .ok html := by
        simp [Store.html, Store.template, htemplate, Template.ofHtml, Body.decode_encode,
          Except.mapError]
      have hone : s.bodies tenant [v] = .ok [html] := by
        simp [Store.bodies, hhtml, pure, Except.pure, bind, Except.bind]
      refine ⟨html :: bodies, ?_⟩
      rw [← List.singleton_append, bodies_concat s tenant hone, hbodies]
      rfl

/-- **A store that is ready for a campaign** has the members of its segment and the HTML of its
variants. -/
theorem Ready.supplies (h : s.Ready c) (hs : s.Orderly) :
    ∃ tenant bodies, s.supplies c = .ok ⟨tenant, s.members c, bodies⟩ := by
  obtain ⟨tenant, htenant⟩ := h.tenant
  obtain ⟨members, hsegment⟩ := h.segment
  have hid : tenant.id = c.tenant := hs.tenants htenant
  have htemplates : ∀ v ∈ c.variants, ∃ name html,
      s.templates.get? v.template = some (.ofHtml v.template tenant.id name html) :=
    hid ▸ h.templates
  obtain ⟨bodies, hbodies⟩ := exists_bodies htemplates
  refine ⟨tenant, bodies, ?_⟩
  simp [Store.supplies, Store.tenant, htenant, hsegment, hbodies, Store.members]

end Store

namespace Worker

/-- **The mail for a variant goes to its bucket**, where variants have different identifiers. -/
theorem recipients_of_variant {σ : Type} (room : Mailroom σ) {c : Campaign} (tenant : Tenant)
    (audience : List String) {bodies : List String} (hbodies : bodies.length = c.variants.length)
    (hids : (c.variants.map (·.id)).Nodup) {i : Nat} {v : Variant} (hv : c.variants[i]? = some v) :
    ∃ bucket, (Share.partition audience c.ratios)[i]? = some bucket ∧
      Batch.recipients (((plan room c tenant audience bodies).map (·.mail)).filter
        (·.variant = v.id)) = bucket := by
  rw [← variants_lots audience hbodies, List.getElem?_map] at hv
  obtain ⟨⟨v, html, bucket⟩, hlot, rfl⟩ := Option.map_eq_some_iff.mp hv
  have hlots : ((lots c audience bodies).map (·.1.id)).Nodup := by
    rwa [← variants_lots audience hbodies, List.map_map] at hids
  refine ⟨bucket, ?_, ?_⟩
  · rw [← buckets_lots_eq audience hbodies, List.getElem?_map, hlot]
    rfl
  · rw [mail_plan]
    exact Batch.recipients_of_variant (batchSize_pos room.settings) _ hlots
      (List.mem_of_getElem? hlot)

/-- **The provider takes every call of a plan.** -/
theorem refusal?_of_mem_plan {σ : Type} {room : Mailroom σ} {c : Campaign} {tenant : Tenant}
    {audience bodies : List String} {m : Mailing} (h : m ∈ plan room c tenant audience bodies) :
    Provider.refusal? m.mail.recipients.length = none := by
  obtain ⟨hsome, hfew⟩ := recipients_of_mem_plan h
  have hcap : room.settings.batchSize ≤ batchCap := min_le_right _ _
  exact Provider.refusal?_eq_none.mpr ⟨List.length_pos_iff.mpr hsome, hfew.trans hcap⟩

end Worker

namespace Store

variable {σ : Type} {s : Store} {room : Mailroom σ} {calls : List Call} {c : Campaign}

/-- The calls for a campaign are the mail of a plan for the members of its segment. -/
def Mailed (s : Store) (room : Mailroom σ) (calls : List Call) (c : Campaign) : Prop :=
  ∃ (tenant : Tenant) (bodies : List String), bodies.length = c.variants.length ∧
    (Call.posted (Call.callsFor c.id calls)).map (·.1) =
      (Worker.plan room c tenant (s.members c) bodies).map (·.mail)

theorem Mailed.exists_plan (h : s.Mailed room calls c) {p : Mail × Reply Unit}
    (hp : p ∈ Call.posted (Call.callsFor c.id calls)) :
    ∃ tenant bodies, ∃ m ∈ Worker.plan room c tenant (s.members c) bodies, m.mail = p.1 := by
  obtain ⟨tenant, bodies, -, hmails⟩ := h
  have hmail := List.mem_map_of_mem (f := Prod.fst) hp
  rw [hmails] at hmail
  exact ⟨tenant, bodies, List.mem_map.mp hmail⟩

theorem Mailed.length_posted (h : s.Mailed room calls c) :
    (Call.posted (Call.callsFor c.id calls)).length = s.callsNeeded room.settings.batchSize c := by
  obtain ⟨tenant, bodies, hbodies, hmails⟩ := h
  rw [← List.length_map (f := Prod.fst), hmails, List.length_map,
    Worker.length_plan room tenant hbodies]
  rfl

theorem Mailed.handed_variant (h : s.Mailed room calls c) (hids : (c.variants.map (·.id)).Nodup)
    {i : Nat} {v : Variant} (hv : c.variants[i]? = some v) :
    ∃ bucket, (s.buckets c)[i]? = some bucket ∧
      Worker.handed ((Call.posted (Call.callsFor c.id calls)).filter (·.1.variant = v.id)) =
        bucket.length := by
  obtain ⟨tenant, bodies, hbodies, hmails⟩ := h
  obtain ⟨bucket, hbucket, hreached⟩ :=
    Worker.recipients_of_variant room tenant (s.members c) hbodies hids hv
  refine ⟨bucket, hbucket, ?_⟩
  rw [← hreached, ← hmails, List.filter_map, Batch.recipients, List.flatMap_map, Worker.handed_eq]
  rfl

end Store

namespace Run

variable {σ : Type} {room : Mailroom σ} {store : σ → Store} {due : List Campaign} {capacity : Nat}
  {s : σ} {r : Run σ} {past : List (Turn × Deed)} {c : Campaign}

/-- A worker whose campaign the store is ready for makes all calls of a plan, and does not fail. -/
theorem Chronicle.mails_of_ready (hw : room.world.Stocked store) (hs : (store s).Orderly)
    (hfit : (store s).Fits) (h : Chronicle room (opened due capacity s) past r) {i : Nat}
    {o : Outcome} (hk : r.workers[i]? = some ⟨c, .ended o⟩) (hready : (store s).Ready c) :
    ∃ tenant bodies, bodies.length = c.variants.length ∧
      (Deed.mails (deedsOf i past)).map (·.1) =
        (Worker.plan room c tenant ((store s).members c) bodies).map (·.mail) ∧
      ∃ summary, o = .mailed summary := by
  obtain ⟨tenant, bodies, hhas⟩ := hready.supplies hs
  rcases (h.course hk).supplied (h.told_by_store hw i) hfit with
    ⟨lack, hlack, -⟩ | ⟨given, resolution, sent, hgiven, hresolve, hplan, hdeeds, ho⟩
  · rw [hhas] at hlack
    cases hlack
  · obtain rfl := Except.ok.inj (hhas.symm.trans hgiven)
    refine ⟨tenant, bodies, hresolve.length_bodies, ?_, _, ho⟩
    rw [hdeeds, Deed.mails_append, hresolve.mails_eq_nil, Worker.mails_posts, List.nil_append,
      hplan, List.map_map, List.map_map]
    rfl

/-- **A campaign that the store is ready for is mailed out.** -/
theorem Chronicle.mailed_of_ready (hw : room.world.Stocked store) (hs : (store s).Orderly)
    (hfit : (store s).Fits) (hids : (due.map (·.id)).Nodup)
    (h : Chronicle room (opened due capacity s) past r) (hfinished : r.foreman = .finished)
    (hc : c ∈ due) (hready : (store s).Ready c) :
    (store s).Mailed room (Deed.calls (deeds past)) c := by
  obtain ⟨i, hi⟩ := List.mem_iff_getElem?.mp hc
  obtain ⟨o, hk⟩ := h.ended_of_finished hfinished hi
  obtain ⟨tenant, bodies, hbodies, hmails, -⟩ := h.mails_of_ready hw hs hfit hk hready
  refine ⟨tenant, bodies, hbodies, ?_⟩
  rw [h.callsFor_eq hids hi, Call.posted_calls, hmails]

/-- No fault is reported where the store is ready for each campaign. -/
theorem Chronicle.firstFault_of_ready (hw : room.world.Stocked store) (hs : (store s).Orderly)
    (hfit : (store s).Fits) (h : Chronicle room (opened due capacity s) past r)
    (hfinished : r.foreman = .finished) (hready : ∀ c ∈ due, (store s).Ready c) :
    r.firstFault = none := by
  rw [h.firstFault_eq hfinished, List.findSome?_eq_none_iff]
  intro i hi
  have hdue := h.due_at (List.getElem?_eq_getElem (List.mem_range.mp hi))
  obtain ⟨o, hended⟩ := h.ended_of_finished hfinished hdue
  have hsupplied := hready _ (List.mem_of_getElem? hdue)
  obtain ⟨_, _, -, -, summary, rfl⟩ := h.mails_of_ready hw hs hfit hended hsupplied
  rw [faultAt, hended]
  rfl

end Run

namespace Office

/-- Each variant of a campaign gained its bucket. -/
def Gained (o u : Office) (c : Campaign) : Prop :=
  ∀ (i : Nat) (v : Variant), c.variants[i]? = some v → ∃ bucket, (o.store.buckets c)[i]? = some bucket ∧
    u.provider.sentCount v.id = o.provider.sentCount v.id + bucket.length

variable {σ : Type} {room : Mailroom σ} {o u : Office} {due : List Campaign} {calls : List Call}

/-- **The provider takes all mail** of campaigns that are mailed out. -/
theorem taken_of_mailed (h : world.History o calls u)
    (howner : ∀ made ∈ calls, made.owner ∈ due.map (·.id))
    (hmailed : ∀ c ∈ due, o.store.Mailed room calls c) : ∀ p ∈ Call.posted calls, p.2 = .ok () := by
  intro p hp
  obtain ⟨made, hmade, hmail⟩ := List.mem_filterMap.mp hp
  cases made with
  | send owner mail reply =>
      obtain rfl := Option.some.inj hmail
      obtain ⟨c, hc, rfl⟩ := List.mem_map.mp (howner _ hmade)
      obtain ⟨tenant, bodies, m, hm, rfl⟩ :=
        (hmailed c hc).exists_plan (Call.mem_posted_of_owner hmade)
      rw [(provider_of_history h).1 _ hp, Worker.refusal?_of_mem_plan hm]
      rfl
  | _ => cases hmail

/-- **The calls that the provider counts** are those that the buckets need. -/
theorem requests_of_mailed (h : world.History o calls u) (hids : (due.map (·.id)).Nodup)
    (howner : ∀ made ∈ calls, made.owner ∈ due.map (·.id))
    (hmailed : ∀ c ∈ due, o.store.Mailed room calls c) :
    u.provider.requests =
      o.provider.requests + (due.map (o.store.callsNeeded room.settings.batchSize)).sum := by
  have htaken := taken_of_mailed h howner hmailed
  have hall : (Call.posted calls).countP (·.2.isOk) = (Call.posted calls).length :=
    List.countP_eq_length.mpr fun p hp => by rw [htaken p hp]; rfl
  rw [(provider_of_history h).2.1, hall, Call.length_posted hids howner, List.map_map]
  exact congrArg (_ + List.sum ·) (List.map_congr_left fun c hc => (hmailed c hc).length_posted)

/-- **The recipients that the provider counts** for a variant are its bucket. -/
theorem gained_of_mailed (h : world.History o calls u)
    (hvariants : (due.flatMap fun c => c.variants.map (·.id)).Nodup)
    (howner : ∀ made ∈ calls, made.owner ∈ due.map (·.id))
    (hmailed : ∀ c ∈ due, o.store.Mailed room calls c) {c : Campaign} (hc : c ∈ due) :
    o.Gained u c := by
  intro i v hv
  obtain ⟨hown, hothers⟩ := List.nodup_flatMap.mp hvariants
  obtain ⟨bucket, hbucket, hhanded⟩ := (hmailed c hc).handed_variant (hown c hc) hv
  refine ⟨bucket, hbucket, ?_⟩
  have htaken := taken_of_mailed h howner hmailed
  have hall : (Call.posted calls).filter (fun p => p.2.isOk && p.1.variant = v.id) =
      (Call.posted calls).filter (·.1.variant = v.id) :=
    List.filter_congr fun p hp => by rw [htaken p hp]; rfl
  -- mail for the variant is of this campaign, since no other one has a variant of that name
  have hmine : ∀ owner mail reply, .send owner mail reply ∈ calls → mail.variant = v.id →
      owner = c.id := by
    intro owner mail reply hmade hvariant
    obtain ⟨d, hd, rfl⟩ := List.mem_map.mp (howner _ hmade)
    obtain ⟨tenant, bodies, m, hm, rfl⟩ :=
      (hmailed d hd).exists_plan (Call.mem_posted_of_owner hmade)
    obtain ⟨w, hw, hmail⟩ := Worker.variant_of_mem_plan hm
    by_contra hne
    have hapart : d ≠ c := fun heq => hne (congrArg (·.id) heq)
    have hsymm : Std.Symm (Function.onFun List.Disjoint fun c : Campaign => c.variants.map (·.id)) :=
      ⟨fun _ _ hdisjoint => hdisjoint.symm⟩
    refine hothers.forall hd hc hapart (List.mem_map_of_mem hw) ?_
    rw [← hmail, hvariant]
    exact List.mem_map_of_mem (List.mem_of_getElem? hv)
  rw [(provider_of_history h).2.2, hall, Call.posted_variant hmine, hhanded]

/-- What the variants of a campaign gained together is what its buckets hold. -/
theorem Gained.sum_eq {c : Campaign} (h : o.Gained u c) :
    (c.variants.map fun v => u.provider.sentCount v.id - o.provider.sentCount v.id).sum =
      (o.store.buckets c).flatten.length := by
  rw [List.length_flatten]
  refine congrArg List.sum ?_
  refine List.ext_getElem? fun i => ?_
  rw [List.getElem?_map, List.getElem?_map]
  cases hv : c.variants[i]? with
  | none =>
      have hnone : (o.store.buckets c)[i]? = none := by
        rw [List.getElem?_eq_none_iff] at hv ⊢
        simpa [Store.buckets, Campaign.ratios] using hv
      rw [hnone]
      rfl
  | some v =>
      obtain ⟨bucket, hbucket, hgained⟩ := h i v hv
      simp [hbucket, hgained]

open Run in
/-- **An office delivers what its campaigns are meant to deliver.**  Let the store, which is in order as
every store is that was built up from nothing, have what each due campaign needs, and let no two of
their variants have the same identifier.  Then, with any settings, every run over the due campaigns
comes to its end, and whatever order turns were taken in:

* the dispatch reports no fault, and the provider took every call;
* each variant gained its bucket, call by call of the batch size, and where the ratios of a campaign
  come to a hundred, its variants together gained the whole segment;
* the provider counts the calls that the buckets need, and no other;
* a campaign that was not due has the very row that it had. -/
theorem all_mailed (settings : Settings) (task : Nat → String) {o : Office} {cutoff : Int}
    (hs : o.store.Orderly) (hfit : o.store.Fits) (hready : ∀ c ∈ o.store.due cutoff, o.store.Ready c)
    (hvariants : ((o.store.due cutoff).flatMap fun c => c.variants.map (·.id)).Nodup)
    (hadmits : (mailroom settings task).admits (o.store.due cutoff).length = true) :
    EndsSurely (mailroom settings task) (start (mailroom settings task) (o.store.due cutoff) o) ∧
      ∀ past verdict u, (mailroom settings task).Dispatched cutoff o past verdict u →
        verdict = .ok ∧ (∀ p ∈ Call.posted (Deed.calls (deeds past)), p.2 = .ok ()) ∧
        (∀ c ∈ o.store.due cutoff,
          o.Gained u c ∧
          (Call.posted (Call.callsFor c.id (Deed.calls (deeds past)))).length =
            o.store.callsNeeded settings.dispatch.batchSize c ∧
          (100 ≤ c.ratios.sum →
            (∀ ratio ∈ c.ratios, (o.store.members c).length * ratio ≤ 2 ^ 53) →
            (c.variants.map fun v =>
              u.provider.sentCount v.id - o.provider.sentCount v.id).sum =
                (o.store.members c).length)) ∧
        u.provider.requests = o.provider.requests +
          ((o.store.due cutoff).map (o.store.callsNeeded settings.dispatch.batchSize)).sum ∧
        ∀ id row, o.store.campaign? id = some row → row.isDue cutoff = false →
          u.store.campaign? id = some row := by
  have hw : (mailroom settings task).world.Stocked (fun o : Office => o.store) := stocked
  refine ⟨endsSurely_of_stocked hw hfit _ _, fun past verdict u h => ?_⟩
  have hfrozen : ∀ id row, o.store.campaign? id = some row → row.isDue cutoff = false →
      u.store.campaign? id = some row := fun _ _ =>
    h.campaign?_of_not_due hw hs.toSound hfit hadmits
  rcases h.run_cases (t := o) rfl hadmits with
    ⟨hnone, rfl, rfl, rfl⟩ | ⟨r, hrun, hfinished, rfl, rfl⟩
  · simpa [hnone, deeds, Call.posted] using hfrozen
  · have hids := (hs.toSound.due cutoff).1
    have hhistory : world.History o (Deed.calls (deeds past)) r.world := hrun.history
    have howner := hrun.owner_mem (hrun.stored hw.returns)
    have hmailed : ∀ c ∈ o.store.due cutoff,
        o.store.Mailed (mailroom settings task) (Deed.calls (deeds past)) c := fun c hc =>
      hrun.mailed_of_ready hw hs hfit hids hfinished hc (hready c hc)
    have hrequests := requests_of_mailed hhistory hids howner hmailed
    refine ⟨?_, taken_of_mailed hhistory howner hmailed, fun c hc => ?_, hrequests, hfrozen⟩
    · rw [hrun.firstFault_of_ready hw hs hfit hfinished hready]
      rfl
    · have hgained := gained_of_mailed hhistory hvariants howner hmailed hc
      refine ⟨hgained, (hmailed c hc).length_posted, fun hsum hproducts => ?_⟩
      rw [hgained.sum_eq, Store.buckets]
      exact congrArg List.length (Share.partition_covers hsum hproducts)

end Office

namespace Season

/-- A branch of the office, where the template was stored from HTML. -/
def branch : Office :=
  { office with store := office.store.insertTemplate (.ofHtml (.ofNat 3) (.ofNat 1) "note" "<b>") }

theorem branch_orderly : branch.store.Orderly :=
  (Store.Built.empty.insertTenant _ |>.insertSegment _ _ |>.insertTemplate _
    |>.insertCampaign _ |>.insertTemplate _).orderly

theorem branch_store_due : branch.store.due 0 = [summer] :=
  Reply.ok.inj (Prod.mk.inj office_due).1

theorem branch_due : Office.world.due 0 branch = (.ok [summer], branch) := by
  rw [← branch_store_due]
  rfl

/-- Its only segment has three members. -/
theorem branch_fits : branch.store.Fits := by
  intro id members hsegment
  have hone : members ∈ [Sample.audience] := Table.mem_values_of_get? hsegment
  obtain rfl := List.mem_singleton.mp hone
  decide

/-- It has all that summer needs. -/
theorem branch_ready : branch.store.Ready summer where
  tenant := ⟨Sample.acme, by decide +kernel⟩
  segment := ⟨Sample.audience, by decide +kernel⟩
  templates v hv := by
    have hone : v.template = .ofNat 3 := by
      revert v
      decide
    exact ⟨"note", "<b>", by rw [hone]; decide +kernel⟩

/-- The settings of the branch. -/
def branchSettings : Settings where
  dispatch := wet.settings
  email := { fromEmail := wet.sender }

/-- The run over what is due there. -/
def branchRun : List (Run.Turn × Deed) × Run Office :=
  Run.follow (Office.mailroom branchSettings wet.task) turns
    (Run.start (Office.mailroom branchSettings wet.task) [summer] branch)

theorem branchRun_dispatched : (Office.mailroom branchSettings wet.task).Dispatched 0 branch
    branchRun.1 (branchRun.2.firstFault.elim .ok .failed) branchRun.2.world :=
  .done branch_due (by decide) (by decide) (Run.chronicle_follow _ _ _) (by decide +kernel)

end Season

/-- Summer's three members are two for the sun and one for the sea, in a call each. -/
theorem Office.all_mailed_of_season :
    Season.branchRun.2.world.provider.sentCount (.ofNat 11) = 2 ∧
      Season.branchRun.2.world.provider.sentCount (.ofNat 12) = 1 ∧
      Season.branchRun.2.world.provider.requests = 2 ∧
      ∀ p ∈ Call.posted (Deed.calls (Run.deeds Season.branchRun.1)), p.2 = .ok () := by
  have hdue := Season.branch_store_due
  have hready : ∀ c ∈ Season.branch.store.due 0, Season.branch.store.Ready c := by
    rw [hdue]
    simpa using Season.branch_ready
  have hvariants : ((Season.branch.store.due 0).flatMap fun c => c.variants.map (·.id)).Nodup := by
    rw [hdue]
    decide
  have hadmits : (mailroom Season.branchSettings Season.wet.task).admits
      (Season.branch.store.due 0).length = true := by
    rw [hdue]
    decide
  obtain ⟨-, h⟩ := all_mailed Season.branchSettings Season.wet.task Season.branch_orderly
    Season.branch_fits hready hvariants hadmits
  obtain ⟨-, htaken, hall, hrequests, -⟩ := h _ _ _ Season.branchRun_dispatched
  rw [hdue] at hall hrequests
  obtain ⟨hgained, -⟩ := hall Season.summer List.mem_cons_self
  obtain ⟨sun, hsun, hfirst⟩ := hgained 0 _ rfl
  obtain ⟨sea, hsea, hsecond⟩ := hgained 1 _ rfl
  have hbuckets : Season.branch.store.buckets Season.summer =
      [["ann@example.com", "bob@example.com"], ["cleo@example.com"]] := by decide +kernel
  rw [hbuckets] at hsun hsea
  obtain rfl := Option.some.inj hsun
  obtain rfl := Option.some.inj hsea
  exact ⟨hfirst, hsecond, hrequests.trans (by decide +kernel), htaken⟩

end Mailshot
