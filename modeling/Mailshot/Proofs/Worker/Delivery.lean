import Mailshot.Proofs.Batch
import Mailshot.Proofs.Share
import Mailshot.Proofs.Worker.Stage

/-!
# What a worker delivers

Once a campaign is resolved, what its worker does is settled up to the replies of the provider: the
calls of the plan, in order, each followed by a report, until all are made or one crashes.

* `Worker.Resolves.course`: a resolution leads to the first batch of the plan;
* `Worker.Course.delivers`: from a resolution on, a course delivers the batches of the plan;
* `Worker.Course.posted`: a worker that ends without a crash has made all calls of the plan;
* `Worker.recipients_plan`, `Worker.length_plan`: whom a plan reaches, and with how many calls.
-/

namespace Mailshot.Worker

variable {σ : Type}

/-- The pages that arrive lead to the pager after them. -/
theorem course_fetches (room : Mailroom σ) (c : Campaign) (tenant : Tenant) {pages : List Page}
    (hmore : ∀ page ∈ pages, page.nextCursor ≠ "") :
    Course room c (found c tenant :: fetches c.id tenant (pager room c) pages)
      (.paging tenant ((pager room c).read pages)) := by
  induction pages using List.reverseRecOn with
  | nil =>
      have hstart : Course room c [] .lookup := .nil
      exact hstart.snoc (.lookup (.ok tenant))
  | append_singleton pages page ih =>
      have hlast : page.nextCursor ≠ "" := hmore page (by simp)
      have hpage : Move room c (.paging tenant ((pager room c).read pages)) _ _ :=
        .page _ _ (.ok page)
      rw [Pager.take_ok, if_neg hlast] at hpage
      have hcourse := (ih fun p hp => hmore p (by simp [hp])).snoc hpage
      simpa [fetches_append, fetches, Pager.read, afterPage] using hcourse

/-- Gathering leads to the announcement. -/
theorem Gathers.course {room : Mailroom σ} {c : Campaign} {tenant : Tenant} {audience : List String}
    {deeds : List Deed} (h : Gathers room c tenant audience deeds) :
    Course room c deeds (.announcing tenant audience) := by
  obtain ⟨pages, last, hmore, hlast, rfl, rfl⟩ := h
  have hpage : Move room c (.paging tenant ((pager room c).read pages)) _ _ :=
    .page _ _ (.ok last)
  rw [Pager.take_ok, if_pos hlast] at hpage
  have hcourse := (course_fetches room c tenant hmore).snoc hpage
  simpa [fetches_append, fetches, Pager.read_audience, pager, Pager.start, afterPage] using hcourse

/-- Reading the content of some variants leads to the content of the others. -/
theorem Reads.course {room : Mailroom σ} {c : Campaign} {tenant : Tenant}
    {audience bodies : List String} {gathering reading : List Deed} {seen rest : List Variant}
    (hgather : Gathers room c tenant audience gathering)
    (hread : Reads c tenant seen bodies reading) (hvariants : c.variants = seen ++ rest) :
    Course room c (gathering ++ .report (.running c.id audience.length) :: reading)
      (toContent room c tenant audience bodies rest) := by
  induction hread generalizing rest with
  | nil =>
      have hcourse := hgather.course.snoc (.announce tenant audience)
      rwa [hvariants] at hcourse
  | @snoc seen bodies deeds v template html _ hdecode ih =>
      have hall : c.variants = seen ++ v :: rest := by simpa using hvariants
      have hcourse := ih hall
      have hmove : Move room c (.content tenant audience bodies v rest) _ _ :=
        .template tenant audience bodies v rest (.ok template)
      have hbody : Content.ofReply v.template (.ok template) = .ok html := by
        simp [Content.ofReply, hdecode]
      rw [hbody] at hmove
      simpa [afterBody] using hcourse.snoc hmove

/-- **A resolution leads to the first batch of the plan.** -/
theorem Resolves.course {room : Mailroom σ} {c : Campaign} {tenant : Tenant}
    {audience bodies : List String} {deeds : List Deed}
    (h : Resolves room c tenant audience bodies deeds) :
    Course room c deeds
      (toPosting c (opening audience) (plan room c tenant audience bodies)) := by
  obtain ⟨gathering, reading, hgather, hread, rfl⟩ := h
  have hall : c.variants = c.variants ++ [] := (List.append_nil _).symm
  exact hread.course hgather hall

/-- **From a resolution on, a course delivers the batches of the plan.** -/
theorem Course.delivers {room : Mailroom σ} {c : Campaign} {tenant : Tenant}
    {audience bodies : List String} {resolution more : List Deed} {p : Phase}
    (hresolve : Resolves room c tenant audience bodies resolution)
    (h : Course room c (resolution ++ more) p) :
    Delivers c (opening audience) (plan room c tenant audience bodies) more p := by
  induction more using List.reverseRecOn generalizing p with
  | nil =>
      rw [List.append_nil] at h
      obtain rfl := h.phase_unique hresolve.course
      exact .between (List.nil_append _).symm (List.forall_mem_nil _)
  | append_singleton more d ih =>
      rw [← List.append_assoc] at h
      obtain ⟨q, hcourse, hmove⟩ := course_snoc.mp h
      exact (ih hcourse).move hmove

/-- The calls that were posted are the calls to the provider. -/
theorem mails_posts (owner : Uuid) (t : Tally) (sent : List (Mailing × Reply Unit)) :
    Deed.mails (posts owner t sent) = sent.map fun p => (p.1.mail, p.2) := by
  induction sent generalizing t with
  | nil => rfl
  | cons p rest ih =>
      obtain ⟨m, reply⟩ := p
      show (m.mail, reply) :: Deed.mails (posts owner _ rest) = _
      rw [ih]
      rfl

/-- A worker that goes on delivering ends without a crash when all calls of the plan are made. -/
theorem Delivers.posted {c : Campaign} {t : Tally} {planned : List Mailing} {deeds : List Deed}
    {o : Outcome} (h : Delivers c t planned deeds (.ended o))
    (hsent : ∀ p ∈ Deed.mails deeds, p.2.Returns) :
    ∃ sent, planned = sent.map (·.1) ∧ deeds = posts c.id t sent ∧
      o = .mailed (summary c (t.after sent)) := by
  generalize hphase : Phase.ended o = p at h
  cases h with
  | @between sent rest hplan =>
      cases rest with
      | nil =>
          simp only [toPosting, Phase.ended.injEq] at hphase
          exact ⟨sent, by simpa using hplan, rfl, hphase⟩
      | cons m rest => cases hphase
  | started | returned => cases hphase
  | @broken sent m rest text =>
      have hcrash : (m.mail, Reply.crash text) ∈ Deed.mails (posts c.id t sent ++
          [.start m.mail, .call (.send c.id m.mail (.crash text))]) := by
        simp [Deed.mails]
      exact (hsent _ hcrash text rfl).elim

/-- **A worker that ends without a crash has made all calls of the plan**, in order. -/
theorem Course.posted {room : Mailroom σ} {c : Campaign} {tenant : Tenant}
    {audience bodies : List String} {resolution deeds : List Deed} {o : Outcome}
    (h : Course room c deeds (.ended o)) (hresolve : Resolves room c tenant audience bodies resolution)
    (hbeginning : resolution <+: deeds) (hsent : ∀ p ∈ Deed.mails deeds, p.2.Returns) :
    ∃ sent, plan room c tenant audience bodies = sent.map (·.1) ∧
      deeds = resolution ++ posts c.id (opening audience) sent ∧
      o = .mailed (summary c ((opening audience).after sent)) := by
  obtain ⟨more, rfl⟩ := hbeginning
  rw [Deed.mails_append, hresolve.mails_eq_nil, List.nil_append] at hsent
  obtain ⟨sent, hplan, rfl, ho⟩ := (h.delivers hresolve).posted hsent
  exact ⟨sent, hplan, rfl, ho⟩

/-- The mail of a plan is that for the bucket of each variant, one after another. -/
theorem mail_plan (room : Mailroom σ) (c : Campaign) (tenant : Tenant)
    (audience bodies : List String) :
    (plan room c tenant audience bodies).map (·.mail) =
      (lots c audience bodies).flatMap fun (v, html, bucket) =>
        Batch.mailsOf room.settings.batchSize (room.senderFor tenant) v html bucket :=
  Batch.mail_plan _ _ _

theorem batchSize_pos (s : DispatchSettings) : 0 < s.batchSize := by
  simp [DispatchSettings.batchSize, batchSizeOf, batchCap]

/-- Every call of a plan is for a piece of the bucket of a variant. -/
theorem exists_lot_of_mem_plan {room : Mailroom σ} {c : Campaign} {tenant : Tenant}
    {audience bodies : List String} {m : Mailing} (h : m ∈ plan room c tenant audience bodies) :
    ∃ v html bucket, (v, html, bucket) ∈ lots c audience bodies ∧ m.mail.variant = v.id ∧
      m.mail.recipients ∈ Batch.chunks room.settings.batchSize bucket := by
  have hmail : m.mail ∈ (plan room c tenant audience bodies).map (·.mail) :=
    List.mem_map_of_mem h
  rw [mail_plan] at hmail
  obtain ⟨⟨v, html, bucket⟩, hlot, hpieces⟩ := List.mem_flatMap.mp hmail
  obtain ⟨piece, hpiece, hm⟩ := List.mem_map.mp hpieces
  rw [← hm]
  exact ⟨v, html, bucket, hlot, rfl, hpiece⟩

/-- Every call of a plan has recipients, and no more than fit. -/
theorem recipients_of_mem_plan {room : Mailroom σ} {c : Campaign} {tenant : Tenant}
    {audience bodies : List String} {m : Mailing} (h : m ∈ plan room c tenant audience bodies) :
    m.mail.recipients ≠ [] ∧ m.mail.recipients.length ≤ room.settings.batchSize := by
  obtain ⟨v, html, bucket, -, -, hpiece⟩ := exists_lot_of_mem_plan h
  exact Batch.of_mem_chunks hpiece

/-- The calls of a plan go to the buckets of its lots, one after another. -/
theorem recipients_lots (room : Mailroom σ) (c : Campaign) (tenant : Tenant)
    (audience bodies : List String) :
    Batch.recipients ((plan room c tenant audience bodies).map (·.mail)) =
      ((lots c audience bodies).map (·.2.2)).flatten := by
  calc Batch.recipients ((plan room c tenant audience bodies).map (·.mail))
      = (lots c audience bodies).flatMap fun (v, html, bucket) => Batch.recipients
          (Batch.mailsOf room.settings.batchSize (room.senderFor tenant) v html bucket) := by
        rw [mail_plan, Batch.recipients, List.flatMap_assoc]
        rfl
    _ = ((lots c audience bodies).map (·.2.2)).flatten := by
        simp only [Batch.recipients_mailsOf (batchSize_pos room.settings), List.flatMap_def]

/-- The lots are for buckets of the audience, from the first one on. -/
theorem buckets_lots (c : Campaign) (audience bodies : List String) :
    (lots c audience bodies).map (·.2.2) <+: Share.partition audience c.ratios := by
  have hzip : ∀ {α β : Type} (xs : List α) (ys : List β), (xs.zip ys).map (·.2) <+: ys := by
    intro α β xs ys
    rw [List.zip_eq_zip_take_min, List.map_snd_zip (by simp)]
    exact List.take_prefix _ _
  have hinner : (bodies.zip (Share.partition audience c.ratios)).map (·.2) <+:
      Share.partition audience c.ratios := hzip _ _
  have houter : (lots c audience bodies).map (·.2) <+:
      bodies.zip (Share.partition audience c.ratios) := hzip _ _
  have hboth := (houter.map (·.2)).trans hinner
  rwa [List.map_map] at hboth

/-- **The lots are for the buckets of the audience**, where there is a body for each variant. -/
theorem buckets_lots_eq {c : Campaign} (audience : List String) {bodies : List String}
    (hbodies : bodies.length = c.variants.length) :
    (lots c audience bodies).map (·.2.2) = Share.partition audience c.ratios := by
  refine (buckets_lots c audience bodies).eq_of_length ?_
  simp [lots, hbodies, Campaign.ratios]

/-- The lots are for the variants, then. -/
theorem variants_lots {c : Campaign} (audience : List String) {bodies : List String}
    (hbodies : bodies.length = c.variants.length) :
    (lots c audience bodies).map (·.1) = c.variants :=
  List.map_fst_zip (by simp [hbodies, Campaign.ratios])

/-- **Whom a plan reaches**: the buckets of the audience, one after another. -/
theorem recipients_plan (room : Mailroom σ) {c : Campaign} (tenant : Tenant)
    {audience bodies : List String} (hbodies : bodies.length = c.variants.length) :
    Batch.recipients ((plan room c tenant audience bodies).map (·.mail)) =
      (Share.partition audience c.ratios).flatten := by
  rw [recipients_lots, buckets_lots_eq audience hbodies]

/-- **The number of calls of a plan**: for each bucket as many as it takes. -/
theorem length_plan (room : Mailroom σ) {c : Campaign} (tenant : Tenant)
    {audience bodies : List String} (hbodies : bodies.length = c.variants.length) :
    (plan room c tenant audience bodies).length =
      ((Share.partition audience c.ratios).map fun bucket =>
        (bucket.length + room.settings.batchSize - 1) / room.settings.batchSize).sum := by
  rw [← List.length_map (f := Mailing.mail), mail_plan, List.length_flatMap,
    ← buckets_lots_eq audience hbodies, List.map_map]
  refine congrArg List.sum (List.map_congr_left fun ⟨v, html, bucket⟩ _ => ?_)
  simp only [Function.comp, Batch.mailsOf, List.length_map,
    Batch.length_chunks (batchSize_pos room.settings)]

/-- Calls made as planned reach the buckets. -/
theorem recipients_sent {room : Mailroom σ} {c : Campaign} {tenant : Tenant}
    {audience bodies : List String} {sent : List (Mailing × Reply Unit)}
    (hbodies : bodies.length = c.variants.length)
    (hplan : plan room c tenant audience bodies = sent.map (·.1)) :
    (sent.map fun p => (p.1.mail, p.2)).flatMap (·.1.recipients) =
      (Share.partition audience c.ratios).flatten := by
  rw [← recipients_plan room tenant hbodies, hplan, Batch.recipients, List.map_map,
    List.flatMap_map, List.flatMap_map]
  rfl

end Mailshot.Worker
