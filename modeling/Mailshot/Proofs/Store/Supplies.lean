import Mailshot.Proofs.Store.Paging
import Mailshot.Proofs.Store.Shelf
import Mailshot.Proofs.Worker.Span

/-!
# What a store has for a campaign

A campaign that is mailed out needs its tenant, the members of its segment, and the HTML of all its
variants.  A store has them all, or something is missing, and then the first thing that is missing
ends the campaign.  Which of the two holds does not depend on how many members a page has, so it is a
matter of the store alone.

* `Store.supplies`: all that a campaign needs, or what is missing;
* `Worker.Resolves.supplies_eq`: a worker that resolves its campaign was given all of it;
* `Worker.Fails.supplies_eq`: a worker that fails was told what is missing;
* `Worker.Course.supplied`: what a worker comes to that gets its answers from a store.
-/

namespace Mailshot

/-- All that a campaign needs to be mailed out. -/
structure Supplies where
  tenant : Tenant
  audience : List String
  /-- The HTML of each variant. -/
  bodies : List String
  deriving DecidableEq, Repr, Inhabited

/-- What is missing for a campaign, with the size of its audience where that is known by then. -/
structure Lack where
  size : Option Nat
  cause : Fault
  deriving DecidableEq, Repr, Inhabited

namespace Store

/-- Every segment can be counted in 64 bits. -/
def Fits (s : Store) : Prop :=
  ∀ id members, s.segments.get? id = some members → members.length ≤ Share.limit

/-- The HTML of a tenant's template. -/
def html (s : Store) (tenant : Tenant) (id : Uuid) : Except Fault String :=
  match s.template tenant id with
  | .error cause => .error (Content.fetchFault id cause)
  | .ok template => (Body.decode template.body).mapError (Content.decodeFault id)

/-- The HTML of variants, in order. -/
def bodies (s : Store) (tenant : Tenant) (variants : List Variant) : Except Fault (List String) :=
  variants.mapM fun v => s.html tenant v.template

/-- All that a campaign needs, or the first thing that is missing. -/
def supplies (s : Store) (c : Campaign) : Except Lack Supplies :=
  match s.tenant c.tenant with
  | .error cause => .error ⟨none, Worker.tenantFault c.tenant cause⟩
  | .ok tenant =>
    match s.segments.get? c.segment with
    | none =>
      .error ⟨none, (Pager.start c.segment 0).fault
        (.audienceResolution s!"segment {c.segment} not found")⟩
    | some audience =>
      match s.bodies tenant c.variants with
      | .error cause => .error ⟨some audience.length, cause⟩
      | .ok bodies => .ok ⟨tenant, audience, bodies⟩

theorem Alike.html {s t : Store} (h : s.Alike t) (tenant : Tenant) (id : Uuid) :
    t.html tenant id = s.html tenant id := by
  simp only [Store.html, h.template]

theorem Alike.fits {s t : Store} (h : s.Alike t) (hfit : s.Fits) : t.Fits :=
  fun id members hsegment => hfit id members ((h.segments id).symm.trans hsegment)

/-- Stores with the same content have the same for a campaign. -/
theorem Alike.supplies {s t : Store} (h : s.Alike t) (c : Campaign) :
    t.supplies c = s.supplies c := by
  simp only [Store.supplies, Store.bodies, h.tenant, h.segments, h.html]

/-- The HTML that comes of the answer of a store. -/
theorem ofReply_template (s : Store) (tenant : Tenant) (id : Uuid) :
    Content.ofReply id (.ofExcept (s.template tenant id)) = .ofExcept (s.html tenant id) := by
  unfold html
  cases s.template tenant id with
  | error cause => rfl
  | ok template =>
      cases hdecode : Body.decode template.body <;>
        simp [Reply.ofExcept, Content.ofReply, hdecode, Except.mapError]

theorem bodies_concat (s : Store) (tenant : Tenant) {seen rest : List Variant} {bodies : List String}
    (hseen : s.bodies tenant seen = .ok bodies) :
    s.bodies tenant (seen ++ rest) = (s.bodies tenant rest).map (bodies ++ ·) := by
  unfold Store.bodies at hseen ⊢
  rw [List.mapM_append, hseen]
  cases rest.mapM fun v => s.html tenant v.template <;> rfl

/-- A page comes from a segment that is there. -/
theorem exists_segment {s : Store} {request : PageRequest} {page : Page}
    (h : s.page request = .ok page) :
    ∃ members, s.segments.get? request.segment = some members := by
  cases hsegment : s.segments.get? request.segment with
  | some members => exact ⟨members, rfl⟩
  | none => cases hoffset : offset? request.cursor <;> simp [Store.page, hoffset, hsegment] at h

end Store

namespace Reply

theorem ofExcept_eq_ok {α : Type} {result : Except Fault α} {a : α}
    (h : Reply.ok a = .ofExcept result) : result = .ok a := by
  cases result with
  | ok b => exact congrArg Except.ok (Reply.ok.inj h).symm
  | error => cases h

theorem ofExcept_eq_fault {α : Type} {result : Except Fault α} {cause : Fault}
    (h : Reply.fault cause = .ofExcept result) : result = .error cause := by
  cases result with
  | ok => cases h
  | error => exact congrArg Except.error (Reply.fault.inj h).symm

theorem ofExcept_ne_crash {α : Type} {result : Except Fault α} {text : String} :
    Reply.crash text ≠ .ofExcept result := by
  cases result <;> simp [ofExcept]

end Reply

namespace Worker

variable {σ : Type} {room : Mailroom σ} {c : Campaign} {s : Store} {tenant : Tenant}
  {audience bodies members : List String} {deeds : List Deed} {pages : List Page}

/-- The calls among deeds got the answers of the store. -/
def Told (s : Store) (deeds : List Deed) : Prop :=
  ∀ made ∈ Deed.calls deeds, s.Says made

theorem told_append {xs ys : List Deed} : Told s (xs ++ ys) ↔ Told s xs ∧ Told s ys := by
  simp [Told, or_imp, forall_and]

theorem told_call {made : Call} {rest : List Deed} :
    Told s (.call made :: rest) ↔ s.Says made ∧ Told s rest := by
  simp [Told]

theorem told_report {e : Event} {rest : List Deed} :
    Told s (.report e :: rest) ↔ Told s rest := Iff.rfl

theorem told_found (h : Told s [found c tenant]) : s.tenant c.tenant = .ok tenant :=
  Reply.ofExcept_eq_ok (told_call.mp h).1

/-- Pages of a stored segment that each name another lead on within it. -/
theorem within_read {owner : Uuid} {p : Pager} (h : p.Within members)
    (hsegment : s.segments.get? p.segment = some members)
    (hmembers : members.length ≤ Share.limit) (hlimit : 0 < p.limit)
    (hmore : ∀ page ∈ pages, page.nextCursor ≠ "") (htold : Told s (fetches owner tenant p pages)) :
    (p.read pages).Within members := by
  induction pages generalizing p with
  | nil => exact h
  | cons page rest ih =>
      obtain ⟨hpage, hrest⟩ := told_call.mp htold
      have hserved := Reply.ofExcept_eq_ok hpage
      rw [h.served hsegment tenant] at hserved
      rcases h.page hmembers hlimit (Except.ok.inj hserved).symm with ⟨-, -, hnext⟩ | ⟨-, hlast, -⟩
      · exact ih hnext hsegment hlimit (fun page hp => hmore page (List.mem_cons_of_mem _ hp)) hrest
      · exact (hmore page List.mem_cons_self hlast).elim

theorem limit_pager_pos (room : Mailroom σ) (c : Campaign) : 0 < (pager room c).limit := by
  simp [pager, Pager.start]

/-- The pager of a worker whose segment is there stays within it. -/
theorem within_pager (hsegment : s.segments.get? c.segment = some members)
    (hmembers : members.length ≤ Share.limit) (hmore : ∀ page ∈ pages, page.nextCursor ≠ "")
    (htold : Told s (fetches c.id tenant (pager room c) pages)) :
    ((pager room c).read pages).Within members :=
  within_read (Pager.within_start _ _ _) hsegment hmembers (limit_pager_pos room c) hmore htold

/-- No page arrives of a segment that is not there. -/
theorem pages_eq_nil (hsegment : s.segments.get? c.segment = none)
    (htold : Told s (fetches c.id tenant (pager room c) pages)) : pages = [] := by
  cases pages with
  | nil => rfl
  | cons page rest =>
      obtain ⟨members, hmembers⟩ :=
        Store.exists_segment (Reply.ofExcept_eq_ok (told_call.mp htold).1)
      have hmembers : s.segments.get? c.segment = some members := hmembers
      rw [hsegment] at hmembers
      cases hmembers

/-- **The audience that is gathered is the segment**, all of it and in order. -/
theorem Gathers.told (h : Gathers room c tenant audience deeds) (htold : Told s deeds)
    (hfit : s.Fits) :
    s.tenant c.tenant = .ok tenant ∧ s.segments.get? c.segment = some audience := by
  obtain ⟨pages, last, hmore, hlast, rfl, rfl⟩ := h
  rw [fetches_append, ← List.singleton_append, told_append, told_append] at htold
  obtain ⟨hfound, hpages, hfinal⟩ := htold
  refine ⟨told_found hfound, ?_⟩
  have hserved := Reply.ofExcept_eq_ok (told_call.mp hfinal).1
  obtain ⟨members, hsegment⟩ := Store.exists_segment hserved
  have hsegment : s.segments.get? c.segment = some members := by
    simpa [Pager.request, pager, Pager.start] using hsegment
  have hwithin : ((pager room c).read pages).Within members :=
    within_pager hsegment (hfit _ _ hsegment) hmore hpages
  rw [hwithin.served (by simpa [pager, Pager.start] using hsegment) tenant] at hserved
  rcases hwithin.page (hfit _ _ hsegment) (by simpa using limit_pager_pos room c)
    (Except.ok.inj hserved).symm with ⟨-, hnext, -⟩ | ⟨-, -, hall⟩
  · exact (hnext hlast).elim
  · rw [hsegment, ← hall, Pager.read_audience]
    simp [pager, Pager.start]

/-- The bodies that are read are those of the store. -/
theorem Reads.told {variants : List Variant} (h : Reads c tenant variants bodies deeds)
    (htold : Told s deeds) : s.bodies tenant variants = .ok bodies := by
  induction h with
  | nil => rfl
  | @snoc seen bodies deeds v template html _ hdecode ih =>
      obtain ⟨hseen, hlast⟩ := told_append.mp htold
      have htemplate := Reply.ofExcept_eq_ok (told_call.mp hlast).1
      have hhtml : s.html tenant v.template = .ok html := by
        simp [Store.html, htemplate, hdecode, Except.mapError]
      rw [Store.bodies_concat s tenant (ih hseen)]
      simp [Store.bodies, hhtml, Except.map, pure, Except.pure, bind, Except.bind]

/-- **A worker that resolves its campaign was given all of it by the store.** -/
theorem Resolves.supplies_eq (h : Resolves room c tenant audience bodies deeds)
    (htold : Told s deeds) (hfit : s.Fits) : s.supplies c = .ok ⟨tenant, audience, bodies⟩ := by
  obtain ⟨gathering, reading, hgather, hread, rfl⟩ := h
  obtain ⟨hgathering, hreading⟩ := told_append.mp htold
  obtain ⟨htenant, hsegment⟩ := hgather.told hgathering hfit
  simp [Store.supplies, htenant, hsegment, hread.told (told_report.mp hreading)]

/-- **A worker that fails was told by the store what is missing**, and has announced the size of the
audience where that is there. -/
theorem Fails.supplies_eq {cause : Fault} (h : Fails room c cause deeds) (htold : Told s deeds)
    (hfit : s.Fits) :
    ∃ size, s.supplies c = .error ⟨size, cause⟩ ∧ Deed.mails deeds = [] ∧
      Deed.events deeds = size.toList.map (Event.running c.id) := by
  cases h with
  | tenant cause =>
      have htenant := Reply.ofExcept_eq_fault (told_call.mp htold).1
      exact ⟨none, by simp [Store.supplies, htenant], rfl, rfl⟩
  | @page tenant pages cause hmore =>
      rw [← List.singleton_append, told_append, told_append] at htold
      obtain ⟨⟨hfound, hpages⟩, hlast⟩ := htold
      have hrefused := Reply.ofExcept_eq_fault (told_call.mp hlast).1
      -- a segment that is there has a page to serve, so there is none, and this was the first page
      cases hsegment : s.segments.get? c.segment with
      | some members =>
          have hwithin : ((pager room c).read pages).Within members :=
            within_pager hsegment (hfit _ _ hsegment) hmore hpages
          rw [hwithin.served (by simpa [pager, Pager.start] using hsegment) tenant] at hrefused
          cases hrefused
      | none =>
          obtain rfl := pages_eq_nil hsegment hpages
          have hpage : s.page (((pager room c).read []).request tenant) =
              .error (.audienceResolution s!"segment {c.segment} not found") := by
            simp [Store.page, Pager.request, pager, Pager.start, Pager.read, Store.offset?,
              hsegment]
          rw [hpage] at hrefused
          obtain rfl := Except.error.inj hrefused
          exact ⟨none, by simp [Store.supplies, told_found hfound, hsegment]; rfl, rfl, rfl⟩
  | @template tenant audience bodies gathering reading seen rest next reply cause hgather hread
      hvariants hreply =>
      rw [List.append_assoc, List.cons_append, told_append, told_report, told_append] at htold
      obtain ⟨hgathering, hreading, hlast⟩ := htold
      obtain ⟨htenant, hsegment⟩ := hgather.told hgathering hfit
      have htemplate : reply = _ := (told_call.mp hlast).1
      rw [htemplate, Store.ofReply_template] at hreply
      have hhtml : s.html tenant next.template = .error cause :=
        Reply.ofExcept_eq_fault hreply.symm
      have hbodies : s.bodies tenant c.variants = .error cause := by
        rw [hvariants, Store.bodies_concat s tenant (hread.told hreading)]
        simp [Store.bodies, hhtml, Except.map, bind, Except.bind]
      refine ⟨some audience.length, by simp [Store.supplies, htenant, hsegment, hbodies], ?_, ?_⟩
      · rw [Deed.mails_append, Deed.mails_append, hgather.silent.1]
        exact congrArg (· ++ []) hread.silent.1
      · rw [Deed.events_append, Deed.events_append, hgather.silent.2, Deed.events_cons_report,
          hread.silent.2]
        rfl

/-- Stores do not crash. -/
theorem Breaks.not_told {text : String} (h : Breaks room c text deeds) : ¬ Told s deeds := by
  intro htold
  cases h with
  | tenant => exact Reply.ofExcept_ne_crash (told_call.mp htold).1
  | page text hmore =>
      rw [told_append] at htold
      exact Reply.ofExcept_ne_crash (told_call.mp htold.2).1
  | template text hgather hread hvariants =>
      rw [told_append] at htold
      exact Reply.ofExcept_ne_crash (told_call.mp htold.2).1

/-- Pages are fetched for members only, but for the first one. -/
theorem Course.gathered_le {p : Phase} (h : Course room c deeds p) (htold : Told s deeds)
    (hfit : s.Fits) : p.gathered ≤ (s.segments.get? c.segment).elim 0 List.length + 1 := by
  have hstage := h.stage
  cases hstage with
  | @paging tenant pages hmore =>
      rw [← List.singleton_append, told_append] at htold
      cases hsegment : s.segments.get? c.segment with
      | some members =>
          have hwithin : ((pager room c).read pages).Within members :=
            within_pager hsegment (hfit _ _ hsegment) hmore htold.2
          have hfetched := hwithin.fetched_le (by simpa using limit_pager_pos room c)
          simpa [Phase.gathered] using hfetched
      | none =>
          obtain rfl := pages_eq_nil hsegment htold.2
          simp [Phase.gathered, Pager.read, pager, Pager.start]
  | delivering _ hdeliver =>
      have hpast := hdeliver.isDelivering
      cases p with
      | paging => cases hpast
      | _ => exact Nat.zero_le _
  | _ => exact Nat.zero_le _

/-- **What a worker comes to that gets its answers from a store.**  Where something is missing it
fails with that and sends nothing.  Otherwise it resolves its campaign and makes all calls of its
plan. -/
theorem Course.supplied {o : Outcome} (h : Course room c deeds (.ended o)) (htold : Told s deeds)
    (hfit : s.Fits) :
    (∃ lack, s.supplies c = .error lack ∧ o = .failed (lack.cause.forCampaign c.id) ∧
      Deed.mails deeds = [] ∧ Deed.events deeds =
        lack.size.toList.map (Event.running c.id) ++ [.failed c.id lack.cause.message]) ∨
    ∃ has resolution sent, s.supplies c = .ok has ∧
      Resolves room c has.tenant has.audience has.bodies resolution ∧
      plan room c has.tenant has.audience has.bodies = sent.map (·.1) ∧
      deeds = resolution ++ posts c.id (opening has.audience) sent ∧
      o = .mailed (summary c ((opening has.audience).after sent)) := by
  generalize hphase : Phase.ended o = p at h
  have hstage := h.stage
  cases hstage with
  | lookup | paging | announcing | content | failing => cases hphase
  | failed hfail =>
      obtain rfl := Phase.ended.inj hphase
      obtain ⟨hbefore, -⟩ := told_append.mp htold
      obtain ⟨size, hlack, hmails, hevents⟩ := hfail.supplies_eq hbefore hfit
      refine .inl ⟨_, hlack, rfl, ?_, ?_⟩
      · rw [Deed.mails_append, hmails]
        rfl
      · rw [Deed.events_append, hevents]
        rfl
  | broken hbreak => exact (hbreak.not_told htold).elim
  | @delivering tenant audience bodies resolution more p hresolve hdeliver =>
      subst hphase
      obtain ⟨hbefore, hmore⟩ := told_append.mp htold
      have hsent : ∀ q ∈ Deed.mails more, q.2.Returns := by
        intro q hq
        obtain ⟨made, hmade, hmail⟩ := List.mem_filterMap.mp hq
        cases made with
        | send owner mail reply =>
            obtain rfl := Option.some.inj hmail
            exact hmore _ hmade
        | _ => cases hmail
      obtain ⟨sent, hplan, rfl, rfl⟩ := hdeliver.posted hsent
      exact .inr ⟨⟨tenant, audience, bodies⟩, resolution, sent, hresolve.supplies_eq hbefore hfit,
        hresolve, hplan, rfl, rfl⟩

end Worker

end Mailshot
