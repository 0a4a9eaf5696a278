import Mailshot.Proofs.Agreement
import Mailshot.Proofs.Run.Chronicle
import Mailshot.Rehearsal

/-!
# Scripts that agree

In a rehearsal a reply depends on what the script says of an identifier and on how often that was
asked for.  So two rehearsals agree about a campaign where their scripts say the same of its tenant,
its segment, its templates, mail for its variants, and its row: whatever they say of others is of no
account, as long as the others ask neither for its segment nor for its variants.

* `Script.history_counts`: how often something was asked for;
* `Script.agree`: two scripts agree about a campaign;
* `Season.wetRun`, `Season.dryRun`: runs by two scripts that agree about one campaign.
-/

namespace Mailshot

namespace Call

/-- Is a page of the segment asked for? -/
def asksPage (segment : Uuid) : Call → Bool
  | .page _ request _ => request.segment = segment
  | _ => false

/-- Is mail for the variant handed over? -/
def asksSend (variant : Uuid) : Call → Bool
  | .send _ mail _ => mail.variant = variant
  | _ => false

/-- Is a row of the campaign handed over? -/
def asksUpdate (id : Uuid) : Call → Bool
  | .update row _ => row.id = id
  | _ => false

/-- Calls that are all for a campaign can be counted among the calls for it. -/
theorem countP_callsFor {id : Uuid} {calls : List Call} {asks : Call → Bool}
    (h : ∀ made ∈ calls, asks made = true → made.isUpdate = false ∧ made.owner = id) :
    (callsFor id calls).countP asks = calls.countP asks := by
  rw [callsFor, List.countP_filter]
  apply List.countP_congr
  intro made hmade
  constructor
  · intro hboth
    exact (Bool.and_eq_true_iff.mp hboth).1
  · intro hasks
    obtain ⟨hupdate, howner⟩ := h made hmade hasks
    simp [hasks, hupdate, howner]

/-- Only its own worker asks for the segment of a campaign that is left alone. -/
theorem Apart.countP_pages {c : Campaign} {calls : List Call} (h : Apart c calls) :
    (callsFor c.id calls).countP (asksPage c.segment) = calls.countP (asksPage c.segment) := by
  apply countP_callsFor
  intro made hmade hasks
  cases made with
  | page owner request reply =>
      have hsegment : request.segment = c.segment := by simpa [asksPage] using hasks
      rcases h _ hmade with hof | ⟨-, hother⟩
      · exact ⟨rfl, hof.owner_eq⟩
      · exact (hother hsegment).elim
  | _ => cases hasks

/-- Only its own worker hands over mail for a variant of a campaign that is left alone. -/
theorem Apart.countP_sends {c : Campaign} {calls : List Call} (h : Apart c calls) {v : Variant}
    (hv : v ∈ c.variants) :
    (callsFor c.id calls).countP (asksSend v.id) = calls.countP (asksSend v.id) := by
  apply countP_callsFor
  intro made hmade hasks
  cases made with
  | send owner mail reply =>
      have hvariant : mail.variant = v.id := by simpa [asksSend] using hasks
      rcases h _ hmade with hof | ⟨-, hother⟩
      · exact ⟨rfl, hof.owner_eq⟩
      · exact (hother v hv hvariant).elim
  | _ => cases hasks

/-- The rows of a campaign are those that were handed over. -/
theorem length_rowsFor (id : Uuid) (calls : List Call) :
    (rowsFor id calls).length = calls.countP (asksUpdate id) := by
  induction calls with
  | nil => rfl
  | cons made rest ih =>
      rw [List.countP_cons, ← ih]
      cases made with
      | update row reply => by_cases hid : row.id = id <;> simp [rowsFor, asksUpdate, hid]
      | _ => simp [rowsFor, asksUpdate]

end Call

/-- What a script says of others is of no account. -/
theorem Mishap.find?_append_others {mishaps others : List Mishap} {id : Uuid}
    (h : ∀ m ∈ others, m.id ≠ id) (before : Nat) :
    find? (mishaps ++ others) id before = find? mishaps id before := by
  have hnone : others.find? (fun m => m.id = id && m.call.all (· = before)) = none := by
    rw [List.find?_eq_none]
    intro m hm
    simp [h m hm]
  rw [find?, find?, List.find?_append, hnone, Option.or_none]

namespace Script

variable {script script' : Script} {c : Campaign} {r r' t : Rehearsal} {calls : List Call}

/-- A call is noted under its identifier. -/
theorem answers_counts {made : Call} (h : script.world.Answers r made t) :
    (∀ segment, t.pages.count segment =
      r.pages.count segment + if made.asksPage segment then 1 else 0) ∧
    (∀ variant, t.sends.count variant =
      r.sends.count variant + if made.asksSend variant then 1 else 0) ∧
    ∀ id, t.updates.count id = r.updates.count id + if made.asksUpdate id then 1 else 0 := by
  cases made with
  | tenant | template =>
      obtain ⟨-, rfl⟩ := Prod.mk.inj h
      exact ⟨fun _ => rfl, fun _ => rfl, fun _ => rfl⟩
  | page owner request reply =>
      have hpage : script.page request r = (reply, t) := h
      obtain rfl : t = { r with pages := request.segment :: r.pages } := by
        unfold page at hpage
        split at hpage <;> exact (Prod.mk.inj hpage).2.symm
      refine ⟨fun segment => ?_, fun _ => rfl, fun _ => rfl⟩
      by_cases hsegment : request.segment = segment <;>
        simp [Call.asksPage, hsegment]
  | send owner mail reply =>
      obtain ⟨-, rfl⟩ := Prod.mk.inj h
      refine ⟨fun _ => rfl, fun variant => ?_, fun _ => rfl⟩
      by_cases hvariant : mail.variant = variant <;>
        simp [Call.asksSend, hvariant]
  | update row reply =>
      have hupdate : script.update row r = (reply, t) := h
      obtain ⟨rows, rfl⟩ : ∃ rows, t = { r with rows, updates := row.id :: r.updates } := by
        unfold update at hupdate
        split at hupdate <;> exact ⟨_, (Prod.mk.inj hupdate).2.symm⟩
      refine ⟨fun _ => rfl, fun _ => rfl, fun id => ?_⟩
      by_cases hid : row.id = id <;> simp [Call.asksUpdate, hid]

/-- Calls are noted under their identifiers. -/
theorem history_counts (h : script.world.History r calls t) :
    (∀ segment, t.pages.count segment =
      r.pages.count segment + calls.countP (Call.asksPage segment)) ∧
    (∀ variant, t.sends.count variant =
      r.sends.count variant + calls.countP (Call.asksSend variant)) ∧
    ∀ id, t.updates.count id = r.updates.count id + calls.countP (Call.asksUpdate id) := by
  induction calls generalizing r with
  | nil =>
      obtain rfl : t = r := h
      exact ⟨fun _ => rfl, fun _ => rfl, fun _ => rfl⟩
  | cons made rest ih =>
      obtain ⟨u, hmade, hrest⟩ := h
      obtain ⟨hpages, hsends, hupdates⟩ := answers_counts hmade
      obtain ⟨hpages', hsends', hupdates'⟩ := ih hrest
      refine ⟨fun segment => ?_, fun variant => ?_, fun id => ?_⟩
      · rw [hpages', hpages, List.countP_cons]
        omega
      · rw [hsends', hsends, List.countP_cons]
        omega
      · rw [hupdates', hupdates, List.countP_cons]
        omega

/-- **Two scripts agree about a campaign** where they say the same of its own things, and these were
asked for equally often before. -/
theorem agree (htenant : script.tenants.lookup c.tenant = script'.tenants.lookup c.tenant)
    (hsegment : script.segments.lookup c.segment = script'.segments.lookup c.segment)
    (htemplates : ∀ v ∈ c.variants,
      script.templates.lookup v.template = script'.templates.lookup v.template)
    (hsends : ∀ v ∈ c.variants, ∀ before,
      Mishap.find? script.sends v.id before = Mishap.find? script'.sends v.id before)
    (hupdates : ∀ before,
      Mishap.find? script.updates c.id before = Mishap.find? script'.updates c.id before)
    (hpaged : r.pages.count c.segment = r'.pages.count c.segment)
    (hsent : ∀ v ∈ c.variants, r.sends.count v.id = r'.sends.count v.id)
    (hstored : r.updates.count c.id = r'.updates.count c.id) :
    script.world.Agree script'.world r r' c where
  tenant _ _ _ _ _ := by
    show (script.tenants.lookup c.tenant).getD _ = (script'.tenants.lookup c.tenant).getD _
    rw [htenant]
  template _ v _ _ _ _ _ hv := by
    show (script.templates.lookup v.template).getD _ = (script'.templates.lookup v.template).getD _
    rw [htemplates v hv]
  page {xs ys t u} request hxs hys hapart hapart' hcalls hrequest := by
    have hcount : t.pages.count request.segment = u.pages.count request.segment := by
      rw [hrequest, (history_counts hxs).1, (history_counts hys).1, hpaged, ← hapart.countP_pages,
        ← hapart'.countP_pages, hcalls]
    show (script.page request t).1 = (script'.page request u).1
    rw [page, page, hrequest, hsegment, ← hrequest, hcount]
    cases script'.segments.lookup request.segment <;> rfl
  send {xs ys t u} mail v hxs hys hapart hapart' hcalls hv hvariant := by
    have hcount : t.sends.count mail.variant = u.sends.count mail.variant := by
      rw [hvariant, (history_counts hxs).2.1, (history_counts hys).2.1, hsent v hv,
        ← hapart.countP_sends hv, ← hapart'.countP_sends hv, hcalls]
    show (Mishap.find? script.sends mail.variant _).getD _ =
      (Mishap.find? script'.sends mail.variant _).getD _
    rw [hcount, hvariant, hsends v hv]
  update {xs ys t u row other} hxs hys _ _ hrows hid htimeless := by
    have hother : other.id = c.id := by
      rw [← Campaign.timeless_id other, ← htimeless, Campaign.timeless_id, hid]
    have hcount : t.updates.count c.id = u.updates.count c.id := by
      rw [(history_counts hxs).2.2, (history_counts hys).2.2, hstored, ← Call.length_rowsFor,
        ← Call.length_rowsFor, hrows]
    show (script.update row t).1 = (script'.update other u).1
    rw [update, update, hid, hother, hcount, hupdates]
    cases Mishap.find? script'.updates c.id (u.updates.count c.id) <;> rfl

end Script

namespace Season

/-! ### A season in two versions

Summer is mailed out in both versions, its second batch being refused and one of its rows not stored.
What else is due differs: in the one version the provider crashes in the second call for storm, and a
body of frost cannot be read; in the other one hail has an unknown tenant, and only one campaign at a
time is at work. -/

open Sample (variant template acme now)

/-- A campaign, pending, with a segment of its own. -/
def campaign (id tenant segment : Nat) (name : String) (variants : List Variant) : Campaign :=
  { Sample.campaign id name variants with tenant := .ofNat tenant, segment := .ofNat segment }

/-- The campaign that is mailed out. -/
def summer : Campaign :=
  campaign 10 1 51 "summer" [variant 10 11 3 60 "Sun", variant 10 12 3 40 "Sea"]

/-- The campaign whose worker breaks. -/
def storm : Campaign :=
  campaign 20 1 52 "storm" [variant 20 21 3 50 "Wind", variant 20 22 3 50 "Rain"]

/-- The campaign with a body that cannot be read. -/
def frost : Campaign :=
  campaign 30 1 53 "frost" [variant 30 31 3 50 "Ice", variant 30 32 4 50 "Snow"]

/-- The campaign of an unknown tenant. -/
def hail : Campaign :=
  campaign 40 9 54 "hail" [variant 40 41 3 100 "Stones"]

/-- The pages of summer's segment. -/
def pages : List (Reply Page) :=
  [.ok ⟨["ann@example.com", "bob@example.com"], "2"⟩, .ok ⟨["cleo@example.com"], ""⟩]

/-- What both versions say about summer, with its template and its row. -/
def common : Script where
  tenants := [(.ofNat 1, .ok acme)]
  segments := [(.ofNat 51, .replies pages)]
  templates := [(.ofNat 3, .ok (template (.ofNat 3)))]
  updates := [{ id := summer.id, call := some 1, reply := .fault (.persistence "locked") }]
  sends := [{ id := .ofNat 12, reply := .fault (.send "refused") }]

/-- The version with storm and frost. -/
def wetScript : Script :=
  { common with
    segments := common.segments ++
      [(.ofNat 52, .replies [.ok ⟨["dan@example.com", "eve@example.com"], ""⟩]),
        (.ofNat 53, .replies [.ok ⟨["fay@example.com"], ""⟩])]
    templates := common.templates ++ [(.ofNat 4, .ok { template (.ofNat 4) with body := "P" })]
    updates := common.updates ++ [{ id := frost.id, reply := .fault (.persistence "gone") }]
    sends := common.sends ++ [{ id := .ofNat 22, reply := .crash "out of paper" }] }

/-- The version with hail. -/
def dryScript : Script :=
  { common with templates := common.templates ++ [(.ofNat 5, .crash "never asked for")] }

/-- The campaigns that are due with storm and frost. -/
def wetDue : List Campaign := [summer, storm, frost]

/-- The campaigns that are due with hail. -/
def dryDue : List Campaign := [hail, summer]

/-- The mailroom with storm and frost. -/
def wet : Mailroom Rehearsal where
  world := wetScript.world
  settings := { maxConcurrency := 2, maxRecipientsPerSend := 2, audiencePageSize := 2 }
  sender := "room@example.com"
  task i := toString (i + 2)

/-- The mailroom with hail. -/
def dry : Mailroom Rehearsal where
  world := dryScript.world
  settings := { wet.settings with maxConcurrency := 1, eventBufferPerCampaign := 1 }
  sender := "room@example.com"
  task i := toString (i + 2)

/-- Turn about: the foreman, the workers and the clerk. -/
def turns : List Run.Turn :=
  (List.replicate 40 [.foreman, .worker 0, .worker 1, .worker 2, .clerk now]).flatten

/-- The run with storm and frost. -/
def wetRun : List (Run.Turn × Deed) × Run Rehearsal :=
  Run.follow wet turns (Run.start wet wetDue { rows := wetDue })

/-- The run with hail. -/
def dryRun : List (Run.Turn × Deed) × Run Rehearsal :=
  Run.follow dry turns (Run.start dry dryDue { rows := dryDue })

theorem wetChronicle :
    Run.Chronicle wet (Run.start wet wetDue { rows := wetDue }) wetRun.1 wetRun.2 :=
  Run.chronicle_follow _ _ _

theorem dryChronicle :
    Run.Chronicle dry (Run.start dry dryDue { rows := dryDue }) dryRun.1 dryRun.2 :=
  Run.chronicle_follow _ _ _

end Season

end Mailshot
