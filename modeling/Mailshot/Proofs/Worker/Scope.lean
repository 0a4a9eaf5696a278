import Mailshot.Proofs.Separate
import Mailshot.Proofs.Worker.Setback

/-!
# What a worker asks about

The worker of a campaign asks about the campaign's own things only: its tenant, its segment, the
templates of its variants, and mail for its variants.  How many others are at work and how long the
queue is does not show in what it does, so two mailrooms may differ in that.

* `Call.Of`, `Call.Spares`: calls about a campaign, and calls that leave it alone;
* `Worker.Course.call_of`: the calls of a worker are about its campaign;
* `Mailroom.Alike`: mailrooms in which workers do the same;
* `Worker.Course.alike`: a course in one is a course in the other.
-/

namespace Mailshot

namespace Call

/-- A call about what belongs to campaign `c`. -/
inductive Of (c : Campaign) : Call → Prop where
  | update {row : Campaign} (hid : row.id = c.id) (reply : Reply Unit) : Of c (.update row reply)
  | tenant (reply : Reply Tenant) : Of c (.tenant c.id c.tenant reply)
  | page {request : PageRequest} (hsegment : request.segment = c.segment) (reply : Reply Page) :
      Of c (.page c.id request reply)
  | template {v : Variant} (hv : v ∈ c.variants) (tenant : Tenant) (reply : Reply Template) :
      Of c (.template c.id tenant v.template reply)
  | send {mail : Mail} {v : Variant} (hv : v ∈ c.variants) (hmail : mail.variant = v.id)
      (reply : Reply Unit) : Of c (.send c.id mail reply)

/-- A call for another campaign, which leaves the segment and the variants of `c` alone. -/
def Spares (c : Campaign) : Call → Prop
  | .update row _ => row.id ≠ c.id
  | .tenant owner _ _ => owner ≠ c.id
  | .page owner request _ => owner ≠ c.id ∧ request.segment ≠ c.segment
  | .template owner _ _ _ => owner ≠ c.id
  | .send owner mail _ => owner ≠ c.id ∧ ∀ v ∈ c.variants, mail.variant ≠ v.id

/-- Calls about campaign `c`, and others that leave it alone. -/
def Apart (c : Campaign) (calls : List Call) : Prop :=
  ∀ made ∈ calls, made.Of c ∨ made.Spares c

/-- What is about a campaign is called for it. -/
theorem Of.owner_eq {c : Campaign} {made : Call} (h : made.Of c) : made.owner = c.id := by
  cases h with
  | update hid => exact hid
  | tenant | page | template | send => rfl

/-- What is about another campaign leaves `c` alone, where they have nothing in common. -/
theorem Of.spares {c d : Campaign} {made : Call} (h : made.Of d) (hid : d.id ≠ c.id)
    (hsegment : d.segment ≠ c.segment)
    (hvariants : ∀ v ∈ d.variants, ∀ u ∈ c.variants, v.id ≠ u.id) : made.Spares c := by
  cases h with
  | update hrow =>
      intro hc
      exact hid (hrow.symm.trans hc)
  | tenant | template => exact hid
  | page hrequest =>
      refine ⟨hid, ?_⟩
      rw [hrequest]
      exact hsegment
  | send hv hmail =>
      refine ⟨hid, fun u hu => ?_⟩
      rw [hmail]
      exact hvariants _ hv u hu

theorem Apart.mono {c : Campaign} {xs calls : List Call} (h : Apart c calls)
    (hxs : xs <+: calls) : Apart c xs := by
  intro made hmade
  exact h made (hxs.mem hmade)

end Call

namespace Worker

variable {σ : Type} {room : Mailroom σ} {c : Campaign} {deeds : List Deed} {p q : Phase} {d : Deed}
  {tenant : Tenant} {audience bodies : List String}

/-- The calls of a plan are for variants of the campaign. -/
theorem variant_of_mem_plan {m : Mailing} (h : m ∈ plan room c tenant audience bodies) :
    ∃ v ∈ c.variants, m.mail.variant = v.id := by
  obtain ⟨v, html, bucket, hlot, hvariant, -⟩ := exists_lot_of_mem_plan h
  exact ⟨v, (List.of_mem_zip hlot).1, hvariant⟩

/-- The template that a worker reads next is that of a variant. -/
theorem Course.content_mem {next : Variant} {rest : List Variant}
    (h : Course room c deeds (.content tenant audience bodies next rest)) : next ∈ c.variants := by
  generalize hphase : Phase.content tenant audience bodies next rest = phase at h
  have hstage := h.stage
  cases hstage with
  | content _ _ hvariants =>
      obtain ⟨-, -, -, rfl, -⟩ := Phase.content.inj hphase
      rw [hvariants]
      simp
  | delivering _ hdeliver =>
      subst hphase
      cases hdeliver.isDelivering
  | _ => cases hphase

/-- The next call of a worker is about its campaign. -/
theorem Move.call_of (h : Move room c p d q) (hcourse : Course room c deeds p) :
    ∀ made ∈ Deed.calls [d], made.Of c := by
  intro made hmade
  cases h with
  | lookup reply =>
      obtain rfl := List.mem_singleton.mp hmade
      exact .tenant reply
  | page tenant p reply =>
      obtain rfl := List.mem_singleton.mp hmade
      exact .page hcourse.fetched_eq.1 reply
  | template tenant audience bodies next rest reply =>
      obtain rfl := List.mem_singleton.mp hmade
      exact .template hcourse.content_mem tenant reply
  | send t m rest reply =>
      obtain rfl := List.mem_singleton.mp hmade
      obtain ⟨tenant, audience, bodies, -, sent, -, hplan, -⟩ := hcourse.awaiting_eq
      have hm : m ∈ plan room c tenant audience bodies := by
        rw [hplan]
        simp
      obtain ⟨v, hv, hmail⟩ := variant_of_mem_plan hm
      exact .send hv hmail reply
  | announce | start | progress | fail => cases hmade

/-- **The calls of a worker are about its campaign.** -/
theorem Course.call_of (h : Course room c deeds p) : ∀ made ∈ Deed.calls deeds, made.Of c := by
  induction h with
  | nil => simp
  | snoc hcourse hmove ih =>
      intro made hmade
      rw [Deed.calls_append] at hmade
      rcases List.mem_append.mp hmade with hmade | hmade
      · exact ih made hmade
      · exact hmove.call_of hcourse made hmade

end Worker

variable {σ τ : Type} {room : Mailroom σ} {room' : Mailroom τ} {c : Campaign}

/-- Mailrooms that ask for pages of one size, send batches of one size, and have the same sender.
They may differ in how many are at work and how many events may wait. -/
structure Mailroom.Alike (room : Mailroom σ) (room' : Mailroom τ) : Prop where
  pageSize : room.settings.pageSize = room'.settings.pageSize
  batchSize : room.settings.batchSize = room'.settings.batchSize
  sender : room.sender = room'.sender

namespace Worker

theorem afterLookup_alike (h : room.Alike room') (reply : Reply Tenant) :
    afterLookup room c reply = afterLookup room' c reply := by
  cases reply with
  | ok tenant => rw [afterLookup, afterLookup, h.pageSize]
  | fault | crash => rfl

theorem toContent_alike (h : room.Alike room') (tenant : Tenant) (audience bodies : List String)
    (rest : List Variant) :
    toContent room c tenant audience bodies rest = toContent room' c tenant audience bodies rest := by
  cases rest with
  | nil =>
      have hsender : room.senderFor tenant = room'.senderFor tenant := by
        rw [Mailroom.senderFor, Mailroom.senderFor, h.sender]
      rw [toContent, toContent, plan, plan, h.batchSize, hsender]
  | cons v rest => rfl

/-- A move in one of two mailrooms that are alike is one in the other. -/
theorem Move.alike {p q : Phase} {d : Deed} (h : Move room c p d q) (hrooms : room.Alike room') :
    Move room' c p d q := by
  cases h with
  | lookup reply =>
      rw [afterLookup_alike hrooms]
      exact .lookup reply
  | page tenant p reply => exact .page tenant p reply
  | announce tenant audience =>
      rw [toContent_alike hrooms]
      exact .announce tenant audience
  | template tenant audience bodies next rest reply =>
      have hbody : ∀ reply, afterBody room c tenant audience bodies rest reply =
          afterBody room' c tenant audience bodies rest reply := by
        intro reply
        cases reply with
        | ok html => exact toContent_alike hrooms tenant audience (bodies ++ [html]) rest
        | fault | crash => rfl
      rw [hbody]
      exact .template tenant audience bodies next rest reply
  | start t m rest => exact .start t m rest
  | send t m rest reply => exact .send t m rest reply
  | progress t percent rest => exact .progress t percent rest
  | fail cause => exact .fail cause

/-- **A course in one of two mailrooms that are alike is one in the other.** -/
theorem Course.alike {deeds : List Deed} {p : Phase} (h : Course room c deeds p)
    (hrooms : room.Alike room') : Course room' c deeds p := by
  induction h with
  | nil => exact .nil
  | snoc _ hmove ih => exact ih.snoc (hmove.alike hrooms)

end Worker

end Mailshot
