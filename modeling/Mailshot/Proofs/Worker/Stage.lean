import Mailshot.Proofs.Audience
import Mailshot.Proofs.Worker.Course

/-!
# The stages of a worker

A worker's phase tells exactly which deeds it has done: the tenant was found, then its audience was
fetched page by page, its size announced, the content of each variant read, and batch after batch
handed over, each followed by a report.  A fault or a crash ends this at some place and nothing of a
later place comes before it.

* `Worker.Gathers`, `Worker.Reads`, `Worker.Resolves`: the deeds before the first batch;
* `Worker.Delivers`: the deeds from the first batch on;
* `Worker.Stage`: the deeds that belong to a phase;
* `Worker.Course.stage`: every course is at a stage.
-/

namespace Mailshot

/-- HTML comes of a template that arrived and whose body can be read. -/
theorem Content.ofReply_ok {id : Uuid} {reply : Reply Template} {html : String}
    (h : ofReply id reply = .ok html) :
    ∃ template, reply = .ok template ∧ Body.decode template.body = .ok html := by
  cases reply with
  | ok template =>
      refine ⟨template, rfl, ?_⟩
      cases hdecode : Body.decode template.body with
      | ok text => simpa [ofReply, hdecode] using h
      | error => simp [ofReply, hdecode] at h
  | fault | crash => simp [ofReply] at h

/-- Reading a body never crashes. -/
theorem Content.ofReply_crash {id : Uuid} {reply : Reply Template} {text : String}
    (h : ofReply id reply = .crash text) : reply = .crash text := by
  cases reply with
  | ok template => cases hdecode : Body.decode template.body <;> simp [ofReply, hdecode] at h
  | fault => simp [ofReply] at h
  | crash => simpa [ofReply] using h

/-- May the worker be at its batches, or past them? -/
def Phase.isDelivering : Phase → Bool
  | .posting .. | .awaiting .. | .reporting .. | .ended (.mailed _) | .ended (.broken _) => true
  | _ => false

/-- The tally after mailings that came back. -/
def Tally.after (t : Tally) (sent : List (Mailing × Reply Unit)) : Tally :=
  sent.foldl (fun t p => (t.note p.1 p.2.isOk).1) t

@[simp] theorem Tally.after_append (t : Tally) (xs ys : List (Mailing × Reply Unit)) :
    t.after (xs ++ ys) = (t.after xs).after ys := by
  simp [after]

namespace Worker

variable {σ : Type}

/-- The lookup of the campaign's tenant, answered with the tenant. -/
def found (c : Campaign) (tenant : Tenant) : Deed :=
  .call (.tenant c.id c.tenant (.ok tenant))

/-- The calls for pages that arrived, one after another. -/
def fetches (owner : Uuid) (tenant : Tenant) : Pager → List Page → List Deed
  | _, [] => []
  | p, page :: rest =>
    .call (.page owner (p.request tenant) (.ok page)) :: fetches owner tenant (p.next page) rest

theorem fetches_append (owner : Uuid) (tenant : Tenant) (p : Pager) (xs ys : List Page) :
    fetches owner tenant p (xs ++ ys) =
      fetches owner tenant p xs ++ fetches owner tenant (p.read xs) ys := by
  induction xs generalizing p with
  | nil => rfl
  | cons page rest ih =>
      show _ :: fetches owner tenant (p.next page) (rest ++ ys) = _
      rw [ih]
      rfl

/-- The pager that a campaign's worker starts with. -/
def pager (room : Mailroom σ) (c : Campaign) : Pager :=
  .start c.segment room.settings.pageSize

/-- The deeds that find the tenant and fetch the whole audience: pages that each name another, and
one that names none. -/
def Gathers (room : Mailroom σ) (c : Campaign) (tenant : Tenant) (audience : List String)
    (deeds : List Deed) : Prop :=
  ∃ pages last, (∀ page ∈ pages, page.nextCursor ≠ "") ∧ last.nextCursor = "" ∧
    audience = (pages ++ [last]).flatMap (·.recipients) ∧
    deeds = found c tenant :: fetches c.id tenant (pager room c) (pages ++ [last])

/-- The deeds that read the content of variants: templates that arrive, with bodies that can be
decoded. -/
inductive Reads (c : Campaign) (tenant : Tenant) : List Variant → List String → List Deed → Prop
  | nil : Reads c tenant [] [] []
  | snoc {variants bodies deeds} {v : Variant} {template : Template} {html : String} :
      Reads c tenant variants bodies deeds → Body.decode template.body = .ok html →
      Reads c tenant (variants ++ [v]) (bodies ++ [html])
        (deeds ++ [.call (.template c.id tenant v.template (.ok template))])

/-- **Resolution.**  The deeds that find the tenant, fetch the audience, announce its size, and read
the content of every variant, in order. -/
def Resolves (room : Mailroom σ) (c : Campaign) (tenant : Tenant) (audience bodies : List String)
    (deeds : List Deed) : Prop :=
  ∃ gathering reading, Gathers room c tenant audience gathering ∧
    Reads c tenant c.variants bodies reading ∧
    deeds = gathering ++ .report (.running c.id audience.length) :: reading

@[simp] theorem mails_fetches (owner : Uuid) (tenant : Tenant) (p : Pager) (pages : List Page) :
    Deed.mails (fetches owner tenant p pages) = [] := by
  induction pages generalizing p with
  | nil => rfl
  | cons page rest ih => exact ih (p.next page)

@[simp] theorem events_fetches (owner : Uuid) (tenant : Tenant) (p : Pager) (pages : List Page) :
    Deed.events (fetches owner tenant p pages) = [] := by
  induction pages generalizing p with
  | nil => rfl
  | cons page rest ih => exact ih (p.next page)

/-- Gathering sends no mail and reports nothing. -/
theorem Gathers.silent {room : Mailroom σ} {c : Campaign} {tenant : Tenant}
    {audience : List String} {deeds : List Deed} (h : Gathers room c tenant audience deeds) :
    Deed.mails deeds = [] ∧ Deed.events deeds = [] := by
  obtain ⟨pages, last, -, -, -, rfl⟩ := h
  have hmails := mails_fetches c.id tenant (pager room c) (pages ++ [last])
  simp only [Deed.mails] at hmails
  simp [Deed.mails, found, hmails]

/-- Reading content sends no mail and reports nothing. -/
theorem Reads.silent {c : Campaign} {tenant : Tenant} {variants : List Variant}
    {bodies : List String} {deeds : List Deed} (h : Reads c tenant variants bodies deeds) :
    Deed.mails deeds = [] ∧ Deed.events deeds = [] := by
  induction h with
  | nil => exact ⟨rfl, rfl⟩
  | snoc _ _ ih => simpa [Deed.mails] using ih

/-- There is one body for each variant read. -/
theorem Reads.length_eq {c : Campaign} {tenant : Tenant} {variants : List Variant}
    {bodies : List String} {deeds : List Deed} (h : Reads c tenant variants bodies deeds) :
    bodies.length = variants.length := by
  induction h with
  | nil => rfl
  | snoc _ _ ih => simpa using ih

/-- Before the campaign is resolved, no mail is sent. -/
theorem Resolves.mails_eq_nil {room : Mailroom σ} {c : Campaign} {tenant : Tenant}
    {audience bodies : List String} {deeds : List Deed}
    (h : Resolves room c tenant audience bodies deeds) : Deed.mails deeds = [] := by
  obtain ⟨gathering, reading, hgather, hread, rfl⟩ := h
  rw [Deed.mails_append, hgather.silent.1]
  exact hread.silent.1

/-- Before the campaign is resolved, the only report is that of the size of its audience. -/
theorem Resolves.events_eq {room : Mailroom σ} {c : Campaign} {tenant : Tenant}
    {audience bodies : List String} {deeds : List Deed}
    (h : Resolves room c tenant audience bodies deeds) :
    Deed.events deeds = [.running c.id audience.length] := by
  obtain ⟨gathering, reading, hgather, hread, rfl⟩ := h
  rw [Deed.events_append, Deed.events_cons_report, hgather.silent.2, hread.silent.2,
    List.nil_append]

/-- A campaign that is resolved has one body for each variant. -/
theorem Resolves.length_bodies {room : Mailroom σ} {c : Campaign} {tenant : Tenant}
    {audience bodies : List String} {deeds : List Deed}
    (h : Resolves room c tenant audience bodies deeds) : bodies.length = c.variants.length := by
  obtain ⟨gathering, reading, -, hread, -⟩ := h
  exact hread.length_eq

/-- The deeds of mailings that came back: each call is started, made, and reported. -/
def posts (owner : Uuid) : Tally → List (Mailing × Reply Unit) → List Deed
  | _, [] => []
  | t, (m, reply) :: rest =>
    .start m.mail :: .call (.send owner m.mail reply) ::
      .report (.progress owner (t.note m reply.isOk).2) ::
      posts owner (t.note m reply.isOk).1 rest

theorem posts_append (owner : Uuid) (t : Tally) (xs ys : List (Mailing × Reply Unit)) :
    posts owner t (xs ++ ys) = posts owner t xs ++ posts owner (t.after xs) ys := by
  induction xs generalizing t with
  | nil => rfl
  | cons sent rest ih =>
      show _ :: _ :: _ :: posts owner _ (rest ++ ys) = _
      rw [ih]
      rfl

/-- The tally of an audience to which nothing was sent yet. -/
def opening (audience : List String) : Tally := ⟨⟨audience.length, 0⟩, 0, 0⟩

/-- The deeds from the first batch on, with what was planned, and the phase they lead to. -/
inductive Delivers (c : Campaign) (t : Tally) (planned : List Mailing) :
    List Deed → Phase → Prop
  | between {sent : List (Mailing × Reply Unit)} {rest : List Mailing}
      (hplan : planned = sent.map (·.1) ++ rest) (hsent : ∀ p ∈ sent, p.2.Returns) :
      Delivers c t planned (posts c.id t sent) (toPosting c (t.after sent) rest)
  | started {sent : List (Mailing × Reply Unit)} {m : Mailing} {rest : List Mailing}
      (hplan : planned = sent.map (·.1) ++ m :: rest) (hsent : ∀ p ∈ sent, p.2.Returns) :
      Delivers c t planned (posts c.id t sent ++ [.start m.mail])
        (.awaiting (t.after sent) m rest)
  | returned {sent : List (Mailing × Reply Unit)} {m : Mailing} {rest : List Mailing}
      {reply : Reply Unit} (hplan : planned = sent.map (·.1) ++ m :: rest)
      (hsent : ∀ p ∈ sent, p.2.Returns) (hreply : reply.Returns) :
      Delivers c t planned
        (posts c.id t sent ++ [.start m.mail, .call (.send c.id m.mail reply)])
        (.reporting ((t.after sent).note m reply.isOk).1 ((t.after sent).note m reply.isOk).2 rest)
  | broken {sent : List (Mailing × Reply Unit)} {m : Mailing} {rest : List Mailing} {text : String}
      (hplan : planned = sent.map (·.1) ++ m :: rest) (hsent : ∀ p ∈ sent, p.2.Returns) :
      Delivers c t planned
        (posts c.id t sent ++ [.start m.mail, .call (.send c.id m.mail (.crash text))])
        (.ended (.broken text))

theorem Delivers.isDelivering {c : Campaign} {t : Tally} {planned : List Mailing}
    {deeds : List Deed} {p : Phase} (h : Delivers c t planned deeds p) : p.isDelivering = true := by
  cases h with
  | @between sent rest => cases rest <;> rfl
  | started | returned | broken => rfl

/-- A move of a worker that delivers goes on delivering. -/
theorem Delivers.move {room : Mailroom σ} {c : Campaign} {t : Tally} {planned : List Mailing}
    {deeds : List Deed} {p q : Phase} {d : Deed} (h : Delivers c t planned deeds p)
    (hmove : Move room c p d q) : Delivers c t planned (deeds ++ [d]) q := by
  cases h with
  | @between sent rest hplan hsent =>
      cases rest with
      | nil => exact (not_move_ended hmove).elim
      | cons m rest =>
          cases hmove with
          | start => exact .started hplan hsent
  | @started sent m rest hplan hsent =>
      cases hmove with
      | send _ _ _ reply =>
          rw [List.append_assoc]
          cases reply with
          | crash text => exact .broken hplan hsent
          | ok | fault => exact .returned hplan hsent (by simp [Reply.Returns])
  | @returned sent m rest reply hplan hsent hreply =>
      cases hmove with
      | progress =>
          have hsent' : ∀ p ∈ sent ++ [(m, reply)], p.2.Returns := by
            intro p hp
            rcases List.mem_append.mp hp with hp | hp
            · exact hsent p hp
            · obtain rfl := List.mem_singleton.mp hp
              exact hreply
          have hplan' : planned = (sent ++ [(m, reply)]).map (·.1) ++ rest := by simpa using hplan
          simpa [posts_append, posts, Tally.after] using
            Delivers.between (c := c) (t := t) hplan' hsent'
  | broken => exact (not_move_ended hmove).elim

/-- The deeds that end with the fault of a step before the first batch. -/
inductive Fails (room : Mailroom σ) (c : Campaign) : Fault → List Deed → Prop
  | tenant (cause : Fault) :
      Fails room c (tenantFault c.tenant cause) [.call (.tenant c.id c.tenant (.fault cause))]
  | page {tenant : Tenant} {pages : List Page} (cause : Fault)
      (hmore : ∀ page ∈ pages, page.nextCursor ≠ "") :
      Fails room c (((pager room c).read pages).fault cause)
        (found c tenant :: fetches c.id tenant (pager room c) pages ++
          [.call (.page c.id (((pager room c).read pages).request tenant) (.fault cause))])
  | template {tenant : Tenant} {audience bodies : List String} {gathering reading : List Deed}
      {seen rest : List Variant} {next : Variant} {reply : Reply Template} {cause : Fault}
      (hgather : Gathers room c tenant audience gathering)
      (hread : Reads c tenant seen bodies reading) (hvariants : c.variants = seen ++ next :: rest)
      (hreply : Content.ofReply next.template reply = .fault cause) :
      Fails room c cause (gathering ++ .report (.running c.id audience.length) :: reading ++
        [.call (.template c.id tenant next.template reply)])

/-- The deeds that end with a crash before the first batch. -/
inductive Breaks (room : Mailroom σ) (c : Campaign) : String → List Deed → Prop
  | tenant (text : String) :
      Breaks room c text [.call (.tenant c.id c.tenant (.crash text))]
  | page {tenant : Tenant} {pages : List Page} (text : String)
      (hmore : ∀ page ∈ pages, page.nextCursor ≠ "") :
      Breaks room c text
        (found c tenant :: fetches c.id tenant (pager room c) pages ++
          [.call (.page c.id (((pager room c).read pages).request tenant) (.crash text))])
  | template {tenant : Tenant} {audience bodies : List String} {gathering reading : List Deed}
      {seen rest : List Variant} {next : Variant} (text : String)
      (hgather : Gathers room c tenant audience gathering)
      (hread : Reads c tenant seen bodies reading)
      (hvariants : c.variants = seen ++ next :: rest) :
      Breaks room c text (gathering ++ .report (.running c.id audience.length) :: reading ++
        [.call (.template c.id tenant next.template (.crash text))])

/-- The deeds that belong to a phase. -/
inductive Stage (room : Mailroom σ) (c : Campaign) : List Deed → Phase → Prop
  | lookup : Stage room c [] .lookup
  | paging {tenant : Tenant} {pages : List Page} (hmore : ∀ page ∈ pages, page.nextCursor ≠ "") :
      Stage room c (found c tenant :: fetches c.id tenant (pager room c) pages)
        (.paging tenant ((pager room c).read pages))
  | announcing {tenant : Tenant} {audience : List String} {deeds : List Deed}
      (hgather : Gathers room c tenant audience deeds) :
      Stage room c deeds (.announcing tenant audience)
  | content {tenant : Tenant} {audience bodies : List String} {gathering reading : List Deed}
      {seen rest : List Variant} {next : Variant}
      (hgather : Gathers room c tenant audience gathering)
      (hread : Reads c tenant seen bodies reading)
      (hvariants : c.variants = seen ++ next :: rest) :
      Stage room c (gathering ++ .report (.running c.id audience.length) :: reading)
        (.content tenant audience bodies next rest)
  | delivering {tenant : Tenant} {audience bodies : List String} {deeds more : List Deed}
      {p : Phase} (hresolve : Resolves room c tenant audience bodies deeds)
      (hdeliver : Delivers c (opening audience) (plan room c tenant audience bodies) more p) :
      Stage room c (deeds ++ more) p
  | failing {cause : Fault} {deeds : List Deed} (hfail : Fails room c cause deeds) :
      Stage room c deeds (.failing cause)
  | failed {cause : Fault} {deeds : List Deed} (hfail : Fails room c cause deeds) :
      Stage room c (deeds ++ [.report (.failed c.id cause.message)])
        (.ended (.failed (cause.forCampaign c.id)))
  | broken {text : String} {deeds : List Deed} (hbreak : Breaks room c text deeds) :
      Stage room c deeds (.ended (.broken text))

/-- With the content of some variants read the worker goes on with the next, or with its batches. -/
theorem stage_toContent {room : Mailroom σ} {c : Campaign} {tenant : Tenant}
    {audience bodies : List String} {gathering reading : List Deed} {seen rest : List Variant}
    (hgather : Gathers room c tenant audience gathering)
    (hread : Reads c tenant seen bodies reading) (hvariants : c.variants = seen ++ rest) :
    Stage room c (gathering ++ .report (.running c.id audience.length) :: reading)
      (toContent room c tenant audience bodies rest) := by
  cases rest with
  | nil =>
      obtain rfl : c.variants = seen := by simpa using hvariants
      have hresolve : Resolves room c tenant audience bodies _ :=
        ⟨gathering, reading, hgather, hread, rfl⟩
      have hnone : Delivers c (opening audience) (plan room c tenant audience bodies) []
          (toPosting c (opening audience) (plan room c tenant audience bodies)) :=
        .between (List.nil_append _).symm (List.forall_mem_nil _)
      rw [← List.append_nil (gathering ++ _)]
      exact .delivering hresolve hnone
  | cons next rest => exact .content hgather hread hvariants

/-- A page that arrived is one more, or completes the audience. -/
theorem stage_page {room : Mailroom σ} {c : Campaign} {tenant : Tenant} {pages : List Page}
    (hmore : ∀ page ∈ pages, page.nextCursor ≠ "") (page : Page) :
    Stage room c (found c tenant :: fetches c.id tenant (pager room c) (pages ++ [page]))
      (afterPage tenant (((pager room c).read pages).take (.ok page))).1 := by
  by_cases hlast : page.nextCursor = ""
  · have haudience : ((pager room c).read pages).audience ++ page.recipients =
        (pages ++ [page]).flatMap (·.recipients) := by
      simp [Pager.read_audience, pager, Pager.start]
    rw [Pager.take_ok, if_pos hlast, haudience]
    exact .announcing ⟨pages, page, hmore, hlast, rfl, rfl⟩
  · have hnext : ((pager room c).read pages).next page = (pager room c).read (pages ++ [page]) := by
      simp [Pager.read]
    have hmore' : ∀ page' ∈ pages ++ [page], page'.nextCursor ≠ "" := by
      simpa [or_imp, forall_and] using ⟨hmore, hlast⟩
    rw [Pager.take_ok, if_neg hlast, hnext]
    exact .paging hmore'

/-- **Every course is at a stage.**  The deeds of a worker are those that belong to its phase. -/
theorem Course.stage {room : Mailroom σ} {c : Campaign} {deeds : List Deed} {p : Phase}
    (h : Course room c deeds p) : Stage room c deeds p := by
  induction h with
  | nil => exact .lookup
  | @snoc deeds p d q _ hmove ih =>
      cases ih with
      | lookup =>
          cases hmove with
          | lookup reply =>
              cases reply with
              | ok tenant => exact .paging (List.forall_mem_nil _)
              | fault cause => exact .failing (.tenant cause)
              | crash text => exact .broken (.tenant text)
      | @paging tenant pages hmore =>
          cases hmove with
          | page _ _ reply =>
              cases reply with
              | ok page =>
                  have hdeeds : found c tenant :: fetches c.id tenant (pager room c) pages ++
                      [.call (.page c.id (((pager room c).read pages).request tenant) (.ok page))] =
                      found c tenant :: fetches c.id tenant (pager room c) (pages ++ [page]) := by
                    simp [fetches_append, fetches]
                  rw [hdeeds]
                  exact stage_page hmore page
              | fault cause => exact .failing (.page cause hmore)
              | crash text => exact .broken (.page text hmore)
      | announcing hgather =>
          cases hmove with
          | announce => exact stage_toContent hgather .nil rfl
      | @content tenant audience bodies gathering reading seen rest next hgather hread hvariants =>
          cases hmove with
          | template _ _ _ _ _ reply =>
              cases hbody : Content.ofReply next.template reply with
              | ok html =>
                  obtain ⟨template, rfl, hdecode⟩ := Content.ofReply_ok hbody
                  have hall : c.variants = (seen ++ [next]) ++ rest := by simpa using hvariants
                  simpa [afterBody] using stage_toContent hgather (hread.snoc hdecode) hall
              | fault cause => exact .failing (.template hgather hread hvariants hbody)
              | crash text =>
                  obtain rfl := Content.ofReply_crash hbody
                  exact .broken (.template text hgather hread hvariants)
      | delivering hresolve hdeliver =>
          rw [List.append_assoc]
          exact .delivering hresolve (hdeliver.move hmove)
      | failing hfail =>
          cases hmove with
          | fail => exact .failed hfail
      | failed | broken => exact (not_move_ended hmove).elim

end Worker

end Mailshot
