import Mailshot.Proofs.Completion
import Mailshot.Proofs.Worker.Tale

/-!
# Setbacks

A step of a worker fails where its call comes back with a fault or brings a body that cannot be read,
and it breaks where the call crashes.  Either way the call is the last one that the worker makes.
Before the first batch this means that nothing was sent; a crash of the provider leaves what was sent
so far, a beginning of the plan.

* `Worker.raised?`: the fault that a call raises, told from the calls before it;
* `Worker.Course.setback`: a call that raises a fault ends the worker with it;
* `Worker.Course.of_failed`: no worker fails otherwise;
* `Worker.Course.cut_short`: what a crash of the provider leaves.
-/

namespace Mailshot

namespace Call

/-- The pages that arrived, in order. -/
def arrived (calls : List Call) : List Page :=
  calls.filterMap fun
    | .page _ _ (.ok p) => some p
    | _ => none

/-- The mail handed to the provider, in order, with how each call came back. -/
def posted (calls : List Call) : List (Mail × Reply Unit) :=
  calls.filterMap fun
    | .send _ mail reply => some (mail, reply)
    | _ => none

/-- Is a template asked for? -/
def isTemplate : Call → Bool
  | .template .. => true
  | _ => false

/-- The text of the crash in which a call ended. -/
def crash? : Call → Option String
  | .update _ (.crash text) | .tenant _ _ (.crash text) | .page _ _ (.crash text)
  | .template _ _ _ (.crash text) | .send _ _ (.crash text) => some text
  | _ => none

@[simp] theorem arrived_append (xs ys : List Call) :
    arrived (xs ++ ys) = arrived xs ++ arrived ys := by
  simp [arrived]

theorem posted_append (xs ys : List Call) : posted (xs ++ ys) = posted xs ++ posted ys := by
  simp [posted]

theorem posted_calls (deeds : List Deed) : posted (Deed.calls deeds) = Deed.mails deeds := rfl

end Call

namespace Worker

variable {σ : Type} {room : Mailroom σ} {c : Campaign} {deeds more : List Deed} {p q : Phase}
  {d : Deed} {made : Call} {cause : Fault} {tenant : Tenant} {o : Outcome}

/-- The fault that a call raises in the worker of a campaign, after the calls `before` it. -/
def raised? (c : Campaign) (before : List Call) : Call → Option Fault
  | .tenant _ _ (.fault cause) => some (tenantFault c.tenant cause)
  | .page _ _ (.fault cause) =>
    some (.audienceResolution
      s!"segment {c.segment} page {(Call.arrived before).length}: {Pager.reason cause}")
  | .template _ _ id reply =>
    match Content.ofReply id reply with
    | .fault cause => some cause
    | _ => none
  | _ => none

@[simp] theorem arrived_fetches (owner : Uuid) (tenant : Tenant) (p : Pager) (pages : List Page) :
    Call.arrived (Deed.calls (fetches owner tenant p pages)) = pages := by
  induction pages generalizing p with
  | nil => rfl
  | cons page rest ih =>
      have hrest := ih (p.next page)
      simpa [fetches, Call.arrived] using hrest

theorem arrived_found (c : Campaign) (tenant : Tenant) (deeds : List Deed) :
    Call.arrived (Deed.calls (found c tenant :: deeds)) = Call.arrived (Deed.calls deeds) := rfl

/-- Templates are no pages. -/
theorem Reads.arrived {variants : List Variant} {bodies : List String}
    (h : Reads c tenant variants bodies deeds) : Call.arrived (Deed.calls deeds) = [] := by
  induction h with
  | nil => rfl
  | snoc _ _ ih => simpa [Call.arrived] using ih

/-- The audience that was gathered is in the pages that arrived. -/
theorem Gathers.arrived {audience : List String} (h : Gathers room c tenant audience deeds) :
    (Call.arrived (Deed.calls deeds)).flatMap (·.recipients) = audience := by
  obtain ⟨pages, last, -, -, rfl, rfl⟩ := h
  rw [arrived_found, arrived_fetches]

/-- A worker that fetches pages has done nothing but that since it found the tenant. -/
theorem Course.paging_eq {p : Pager} (h : Course room c deeds (.paging tenant p)) :
    ∃ pages, p = (pager room c).read pages ∧
      deeds = found c tenant :: fetches c.id tenant (pager room c) pages := by
  generalize hphase : Phase.paging tenant p = phase at h
  have hstage := h.stage
  cases hstage with
  | @paging tenant' pages =>
      obtain ⟨rfl, rfl⟩ := Phase.paging.inj hphase
      exact ⟨pages, rfl, rfl⟩
  | delivering _ hdeliver =>
      subst hphase
      cases hdeliver.isDelivering
  | _ => cases hphase

/-- A pager on its way has counted the pages that arrived. -/
theorem Course.fetched_eq {p : Pager} (h : Course room c deeds (.paging tenant p)) :
    p.segment = c.segment ∧ p.fetched = (Call.arrived (Deed.calls deeds)).length := by
  obtain ⟨pages, rfl, rfl⟩ := h.paging_eq
  rw [arrived_found, arrived_fetches, Pager.read_segment, Pager.read_fetched]
  simp [pager, Pager.start]

theorem toPosting_ne_failing (t : Tally) (rest : List Mailing) :
    toPosting c t rest ≠ .failing cause := by
  cases rest <;> simp [toPosting]

theorem toContent_ne_failing (audience bodies : List String) (rest : List Variant) :
    toContent room c tenant audience bodies rest ≠ .failing cause := by
  cases rest with
  | nil => exact toPosting_ne_failing _ _
  | cons => simp [toContent]

/-- **A call makes the worker fail exactly where it raises a fault.** -/
theorem Move.failing_iff (h : Move room c p (.call made) q) (hcourse : Course room c deeds p) :
    q = .failing cause ↔ raised? c (Deed.calls deeds) made = some cause := by
  generalize hdeed : Deed.call made = d at h
  cases h with
  | lookup reply =>
      obtain rfl := Deed.call.inj hdeed
      cases reply <;> simp [raised?, afterLookup]
  | page tenant p reply =>
      obtain rfl := Deed.call.inj hdeed
      obtain ⟨hsegment, hfetched⟩ := hcourse.fetched_eq
      cases reply with
      | ok page =>
          by_cases hlast : page.nextCursor = "" <;>
            simp [raised?, Pager.take_ok, hlast, afterPage]
      | fault cause' => simp [raised?, afterPage, Pager.take, Pager.fault, hsegment, hfetched]
      | crash text => simp [raised?, afterPage, Pager.take]
  | template tenant audience bodies next rest reply =>
      obtain rfl := Deed.call.inj hdeed
      cases hbody : Content.ofReply next.template reply with
      | ok html => simp [raised?, hbody, afterBody, toContent_ne_failing]
      | fault cause' => simp [raised?, hbody, afterBody]
      | crash text => simp [raised?, hbody, afterBody]
  | send t m rest reply =>
      obtain rfl := Deed.call.inj hdeed
      cases reply <;> simp [raised?, afterSend]
  | announce | start | progress | fail => cases hdeed

/-- The deeds of a worker that is about to report a failure. -/
theorem Course.fails (h : Course room c deeds (.failing cause)) : Fails room c cause deeds := by
  generalize hphase : Phase.failing cause = phase at h
  have hstage := h.stage
  cases hstage with
  | failing hfail =>
      obtain rfl := Phase.failing.inj hphase
      exact hfail
  | delivering _ hdeliver =>
      cases hdeliver with
      | between => exact (toPosting_ne_failing _ _ hphase.symm).elim
      | _ => cases hphase
  | _ => cases hphase

/-- A worker that fails reports that and ends. -/
theorem Course.after_failing (h : Course room c deeds (.failing cause))
    (hmore : Course room c (deeds ++ more) (.ended o)) :
    more = [.report (.failed c.id cause.message)] ∧ o = .failed (cause.forCampaign c.id) := by
  cases more with
  | nil =>
      rw [List.append_nil] at hmore
      cases h.phase_unique hmore
  | cons d rest =>
      obtain ⟨p, q, hcourse, hmove⟩ := hmore.split
      obtain rfl := h.phase_unique hcourse
      cases hmove with
      | fail =>
          have hlast := h.snoc (.fail cause)
          rw [← List.singleton_append, ← List.append_assoc] at hmore
          obtain rfl := hlast.ended_maximal hmore
          rw [List.append_nil] at hmore
          exact ⟨rfl, Phase.ended.inj (hmore.phase_unique hlast)⟩

/-- What a worker has sent and told when a call makes it fail: no mail, and the size of the audience
only if a template was asked for. -/
theorem Fails.made_last (h : Fails room c cause (deeds ++ [.call made])) :
    Deed.mails (deeds ++ [.call made]) = [] ∧
      Deed.events (deeds ++ [.call made]) =
        if made.isTemplate then
          [.running c.id ((Call.arrived (Deed.calls deeds)).flatMap (·.recipients)).length]
        else [] := by
  generalize hall : deeds ++ [.call made] = all at h
  cases h with
  | tenant cause' =>
      have hlast := congrArg List.getLast? hall
      rw [List.getLast?_concat] at hlast
      obtain rfl := Deed.call.inj (Option.some.inj hlast)
      exact ⟨rfl, rfl⟩
  | @page tenant pages cause' hmore =>
      obtain ⟨-, hlast⟩ := List.append_inj' hall rfl
      obtain rfl := Deed.call.inj (List.singleton_inj.mp hlast)
      constructor
      · rw [Deed.mails_append]
        exact congrArg (· ++ []) (mails_fetches c.id tenant (pager room c) pages)
      · rw [Deed.events_append]
        exact congrArg (· ++ []) (events_fetches c.id tenant (pager room c) pages)
  | @template tenant audience bodies gathering reading _ _ next reply cause' hgather hread =>
      obtain ⟨rfl, hlast⟩ := List.append_inj' hall rfl
      obtain rfl := Deed.call.inj (List.singleton_inj.mp hlast)
      have harrived : (Call.arrived (Deed.calls (gathering ++
          .report (.running c.id audience.length) :: reading))).flatMap (·.recipients) =
          audience := by
        simp [hread.arrived, hgather.arrived]
      constructor
      · rw [Deed.mails_append, Deed.mails_append, hgather.silent.1]
        exact congrArg (· ++ []) hread.silent.1
      · rw [harrived]
        simp [hgather.silent.2, hread.silent.2, Call.isTemplate]

/-- **A call that raises a fault ends the worker with it.**  No call follows, no mail was sent, and
what was told is the size of the audience, where that was known, and the failure. -/
theorem Course.setback {before after : List Call} (h : Course room c deeds (.ended o))
    (hcalls : Deed.calls deeds = before ++ made :: after)
    (hraised : raised? c before made = some cause) :
    after = [] ∧ o = .failed (cause.forCampaign c.id) ∧ Deed.mails deeds = [] ∧
      Deed.events deeds =
        (if made.isTemplate then
          [.running c.id ((Call.arrived before).flatMap (·.recipients)).length]
        else []) ++ [.failed c.id cause.message] := by
  obtain ⟨done, rest, rfl, rfl, rfl⟩ := Deed.calls_eq_append_cons hcalls
  obtain ⟨p, q, hdone, hmove⟩ := h.split
  obtain rfl := (hmove.failing_iff hdone).mpr hraised
  have hfailing := hdone.snoc hmove
  rw [← List.singleton_append, ← List.append_assoc] at h
  -- all that is left to do is to report the failure
  obtain ⟨rfl, rfl⟩ := hfailing.after_failing h
  obtain ⟨hmails, hevents⟩ := hfailing.fails.made_last
  refine ⟨rfl, rfl, ?_, ?_⟩
  · rw [← List.singleton_append, ← List.append_assoc, Deed.mails_append, hmails]
    rfl
  · rw [← List.singleton_append, ← List.append_assoc, Deed.events_append, hevents]
    rfl

/-- The last call of a worker that fails raised the fault. -/
theorem Fails.raised (h : Fails room c cause deeds) :
    ∃ before made, Deed.calls deeds = before ++ [made] ∧ raised? c before made = some cause := by
  cases h with
  | tenant cause' => exact ⟨[], _, rfl, rfl⟩
  | @page tenant pages cause' =>
      refine ⟨_, _, Deed.calls_append _ _, ?_⟩
      rw [raised?, arrived_found, arrived_fetches, Pager.fault, Pager.read_segment,
        Pager.read_fetched]
      simp [pager, Pager.start]
  | template _ _ _ hreply =>
      refine ⟨_, _, Deed.calls_append _ _, ?_⟩
      simp [raised?, hreply]

/-- **No worker fails otherwise.**  The last call of a worker that failed raised the fault. -/
theorem Course.of_failed (h : Course room c deeds (.ended (.failed cause))) :
    ∃ before made source, Deed.calls deeds = before ++ [made] ∧
      raised? c before made = some source ∧ cause = source.forCampaign c.id := by
  generalize hphase : Phase.ended (.failed cause) = phase at h
  have hstage := h.stage
  cases hstage with
  | @failed source done hfail =>
      obtain rfl := Outcome.failed.inj (Phase.ended.inj hphase)
      obtain ⟨before, made, hcalls, hraised⟩ := hfail.raised
      exact ⟨before, made, source, by simpa using hcalls, hraised, rfl⟩
  | delivering _ hdeliver =>
      subst hphase
      cases hdeliver.isDelivering
  | _ => cases hphase

/-- The last call of a worker that breaks before the first batch crashed. -/
theorem Breaks.crashed {text : String} (h : Breaks room c text deeds) :
    ∃ before made, Deed.calls deeds = before ++ [made] ∧ made.crash? = some text := by
  cases h with
  | tenant => exact ⟨[], _, rfl, rfl⟩
  | page | template =>
      refine ⟨_, _, Deed.calls_append _ _, ?_⟩
      rfl

/-- **No worker breaks otherwise.**  The last call of a worker that broke crashed. -/
theorem Course.of_broken {text : String} (h : Course room c deeds (.ended (.broken text))) :
    ∃ before made, Deed.calls deeds = before ++ [made] ∧ made.crash? = some text := by
  generalize hphase : Phase.ended (.broken text) = phase at h
  have hstage := h.stage
  cases hstage with
  | broken hbreak =>
      obtain rfl := Outcome.broken.inj (Phase.ended.inj hphase)
      exact hbreak.crashed
  | @delivering _ audience _ resolution _ _ _ hdeliver =>
      cases hdeliver with
      | @broken sent m _ _ =>
          obtain rfl := Outcome.broken.inj (Phase.ended.inj hphase)
          refine ⟨Deed.calls (resolution ++ posts c.id (opening audience) sent),
            .send c.id m.mail (.crash text), ?_, rfl⟩
          rw [← List.append_assoc, Deed.calls_append]
          rfl
      | @between sent rest => cases rest <;> cases hphase
      | _ => cases hphase
  | _ => cases hphase

/-- **What a call may raise**, whatever fault it came back with: a worker knows four kinds of faults
of its own, and each ends its campaign. -/
theorem raised?_kind {before : List Call} (h : raised? c before made = some cause) :
    ((∃ id text, cause = .tenantLookup id text) ∨ (∃ text, cause = .audienceResolution text) ∨
      (∃ text, cause = .contentFetch text) ∨ ∃ text, cause = .contentDecode text) ∧
      cause.isUnrecoverable = true := by
  cases made with
  | tenant owner id reply =>
      cases reply with
      | fault cause' =>
          obtain rfl := Option.some.inj h
          cases cause' <;> exact ⟨Or.inl ⟨_, _, rfl⟩, rfl⟩
      | ok | crash => cases h
  | page owner request reply =>
      cases reply with
      | fault cause' =>
          obtain rfl := Option.some.inj h
          exact ⟨Or.inr (Or.inl ⟨_, rfl⟩), rfl⟩
      | ok | crash => cases h
  | template owner tenant id reply =>
      cases reply with
      | ok template =>
          cases hdecode : Body.decode template.body with
          | ok html => simp [raised?, Content.ofReply, hdecode] at h
          | error flaw =>
              obtain rfl : Content.decodeFault id flaw = cause := by
                simpa [raised?, Content.ofReply, hdecode] using h
              exact ⟨Or.inr (Or.inr (Or.inr ⟨_, rfl⟩)), rfl⟩
      | fault cause' =>
          obtain rfl : Content.fetchFault id cause' = cause := Option.some.inj h
          cases cause' <;> exact ⟨Or.inr (Or.inr (Or.inl ⟨_, rfl⟩)), rfl⟩
      | crash => cases h
  | update | send => cases h

/-- The tally counts the recipients of the calls that came back. -/
theorem progress_after (t : Tally) (sent : List (Mailing × Reply Unit)) :
    (t.after sent).progress = ⟨t.progress.segmentSize,
      t.progress.attempted + handed (sent.map fun p => (p.1.mail, p.2))⟩ := by
  induction sent generalizing t with
  | nil => rfl
  | cons p rest ih =>
      obtain ⟨m, reply⟩ := p
      have hrest := ih (t.note m reply.isOk).1
      refine hrest.trans ?_
      simp [Tally.note, Progress.record, Nat.add_assoc]

theorem percents_append (t : Tally) (xs ys : List (Mailing × Reply Unit)) :
    percents t (xs ++ ys) = percents t xs ++ percents (t.after xs) ys := by
  induction xs generalizing t with
  | nil => rfl
  | cons p rest ih =>
      obtain ⟨m, reply⟩ := p
      show _ :: percents _ (rest ++ ys) = _
      rw [ih]
      rfl

/-- The last progress reported is that of all recipients, or full where the last call closes the
campaign. -/
theorem getLast?_percents_eq (t : Tally) (sent : List (Mailing × Reply Unit)) :
    (percents t sent).getLast? = (sent.map (·.1)).getLast?.map fun m =>
      if m.closing then 100 else Progress.percent
        (t.progress.attempted + handed (sent.map fun p => (p.1.mail, p.2)))
        t.progress.segmentSize := by
  induction sent using List.reverseRecOn with
  | nil => rfl
  | append_singleton sent p _ =>
      obtain ⟨m, reply⟩ := p
      simp [percents_append, percents, Tally.note, Progress.record, progress_after, Nat.add_assoc]

/-- The last progress reported for calls that do not close the campaign is that of all their
recipients. -/
theorem getLast?_percents (t : Tally) {sent : List (Mailing × Reply Unit)}
    (hopen : ∀ p ∈ sent, p.1.closing = false) :
    (percents t sent).getLast? = if sent = [] then none else
      some (Progress.percent
        (t.progress.attempted + handed (sent.map fun p => (p.1.mail, p.2)))
        t.progress.segmentSize) := by
  rw [getLast?_percents_eq]
  rcases List.eq_nil_or_concat sent with rfl | ⟨init, p, rfl⟩
  · rfl
  · simp [hopen p (by simp)]

/-- While a call to the provider is under way, those before it are the beginning of the plan. -/
theorem Course.awaiting_eq {t : Tally} {m : Mailing} {rest : List Mailing}
    (h : Course room c deeds (.awaiting t m rest)) :
    ∃ tenant audience bodies resolution sent,
      Resolves room c tenant audience bodies resolution ∧
      plan room c tenant audience bodies = sent.map (·.1) ++ m :: rest ∧
      (∀ p ∈ sent, p.2.Returns) ∧
      deeds = resolution ++ (posts c.id (opening audience) sent ++ [.start m.mail]) := by
  generalize hphase : Phase.awaiting t m rest = phase at h
  have hstage := h.stage
  cases hstage with
  | @delivering tenant audience bodies resolution _ _ hresolve hdeliver =>
      cases hdeliver with
      | @started sent _ _ hplan hsent =>
          obtain ⟨rfl, rfl, rfl⟩ := Phase.awaiting.inj hphase
          exact ⟨tenant, audience, bodies, resolution, sent, hresolve, hplan, hsent, rfl⟩
      | @between sent others => cases others <;> cases hphase
      | _ => cases hphase
  | _ => cases hphase

/-- **What a crash of the provider leaves.**  The calls before it are the beginning of the plan and
came back; no call follows. -/
theorem Course.cut_short {before after : List Call} {mail : Mail} {text : String}
    (h : Course room c deeds (.ended o))
    (hcalls : Deed.calls deeds = before ++ .send c.id mail (.crash text) :: after) :
    after = [] ∧ o = .broken text ∧ ∃ tenant audience bodies resolution sent m rest,
      Resolves room c tenant audience bodies resolution ∧
      plan room c tenant audience bodies = sent.map (·.1) ++ m :: rest ∧ m.mail = mail ∧
      (∀ p ∈ sent, p.2.Returns) ∧
      deeds = resolution ++ (posts c.id (opening audience) sent ++
        [.start mail, .call (.send c.id mail (.crash text))]) := by
  obtain ⟨done, rest, rfl, rfl, rfl⟩ := Deed.calls_eq_append_cons hcalls
  obtain ⟨p, q, hdone, hmove⟩ := h.split
  generalize hdeed : Deed.call (.send c.id mail (.crash text)) = d at hmove
  cases hmove with
  | send t m others reply =>
      obtain ⟨-, rfl, rfl⟩ := Call.send.inj (Deed.call.inj hdeed)
      have hbroken := hdone.snoc (.send t m others (.crash text))
      rw [← List.singleton_append, ← List.append_assoc] at h
      obtain rfl := hbroken.ended_maximal h
      rw [List.append_nil] at h
      obtain ⟨tenant, audience, bodies, resolution, sent, hresolve, hplan, hsent, rfl⟩ :=
        hdone.awaiting_eq
      exact ⟨rfl, Phase.ended.inj (h.phase_unique hbroken), tenant, audience, bodies, resolution,
        sent, m, others, hresolve, hplan, rfl, hsent, by simp⟩
  | lookup | page | template | announce | start | progress | fail => cases hdeed

end Worker

namespace Campaign

/-- Progress that is reported leaves a row at the last progress told. -/
theorem after_progress (id : Uuid) (c : Campaign) (percents : List Nat) :
    c.after (percents.map (Event.progress id)) =
      { c with progress := (percents.getLast?.map cap).getD c.progress } := by
  induction percents using List.reverseRecOn with
  | nil => rfl
  | append_singleton percents percent ih =>
      rw [List.map_append, after_append, ih]
      simp [after, merge, Event.progress]

/-- A row is running once its audience was told, as long as no failure was. -/
theorem status_after_underway {id : Uuid} {events : List Event}
    (h : Worker.Underway id events) (hevents : events ≠ []) (c : Campaign) :
    (c.after events).status = .running := by
  cases h with
  | nothing => exact (hevents rfl).elim
  | @running n percents =>
      show ((c.merge (Event.running id n).delta).after (percents.map (Event.progress id))).status = _
      rw [after_progress]
      rfl

end Campaign

end Mailshot
