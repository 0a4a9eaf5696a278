import Mailshot.Audience
import Mailshot.Batch
import Mailshot.Content
import Mailshot.Mailroom

/-!
# Workers

A worker mails out one campaign: it looks up the tenant, fetches the audience, announces its size,
fetches all content, and then hands over batch by batch, reporting progress after each.  Content is
complete before the first batch goes out, so a bad template never leaves a campaign half delivered.
Between two steps a worker is in a phase, and a step either calls the world or brings one event to
the desk.

* `Worker.act`: the step of a worker that calls the world;
* `Worker.report`: the event of a worker that has one to bring, and the phase after it.
-/

namespace Mailshot

/-- What is told of a campaign that was mailed out. -/
structure Summary where
  campaign : Uuid
  audience : Nat
  attempted : Nat
  failedBatches : Nat
  deriving DecidableEq, Repr, Inhabited

/-- How a worker ends. -/
inductive Outcome where
  | mailed (summary : Summary)
  | failed (cause : Fault)
  /-- A call crashed, and the worker with it. -/
  | broken (text : String)
  deriving DecidableEq, Repr, Inhabited

/-- Where a worker stands. -/
inductive Phase where
  | lookup
  | paging (tenant : Tenant) (pager : Pager)
  | announcing (tenant : Tenant) (audience : List String)
  /-- With the content of the variants before `next`. -/
  | content (tenant : Tenant) (audience bodies : List String) (next : Variant) (rest : List Variant)
  | posting (tally : Tally) (next : Mailing) (rest : List Mailing)
  /-- A call to the provider is under way. -/
  | awaiting (tally : Tally) (current : Mailing) (rest : List Mailing)
  | reporting (tally : Tally) (percent : Nat) (rest : List Mailing)
  | failing (cause : Fault)
  | ended (outcome : Outcome)
  deriving DecidableEq, Repr, Inhabited

/-- A campaign at work. -/
structure Worker where
  campaign : Campaign
  phase : Phase := .lookup
  deriving DecidableEq, Repr, Inhabited

namespace Worker

/-- Has the worker ended, in whatever way? -/
def isOver (k : Worker) : Bool :=
  match k.phase with
  | .ended _ => true
  | _ => false

/-- Is a call to the provider under way? -/
def isSending (k : Worker) : Bool :=
  match k.phase with
  | .awaiting .. => true
  | _ => false

/-- The fault of a tenant that could not be looked up.  One of this very kind is kept as it is. -/
def tenantFault (tenant : Uuid) : Fault → Fault
  | .tenantLookup id text => .tenantLookup id text
  | other => .tenantLookup tenant other.message

/-- What a worker counts on failing. -/
def failure : Counters := { campaignsFailed := 1 }

/-- What is told once every batch was handed over. -/
def summary (c : Campaign) (t : Tally) : Summary :=
  ⟨c.id, t.progress.segmentSize, t.progress.attempted, t.failed⟩

/-- Goes on with the batches that remain. -/
def toPosting (c : Campaign) (t : Tally) : List Mailing → Phase
  | [] => .ended (.mailed (summary c t))
  | m :: rest => .posting t m rest

/-- The variants of a campaign, each with its HTML and its bucket. -/
def lots (c : Campaign) (audience bodies : List String) : List (Variant × String × List String) :=
  c.variants.zip (bodies.zip (Share.partition audience c.ratios))

/-- The batches of a campaign. -/
def plan (room : Mailroom σ) (c : Campaign) (tenant : Tenant) (audience bodies : List String) :
    List Mailing :=
  Batch.plan room.settings.batchSize (room.senderFor tenant) (lots c audience bodies)

/-- Goes on with the content that is missing. -/
def toContent (room : Mailroom σ) (c : Campaign) (tenant : Tenant) (audience bodies : List String) :
    List Variant → Phase
  | [] => toPosting c ⟨⟨audience.length, 0⟩, 0, 0⟩ (plan room c tenant audience bodies)
  | v :: rest => .content tenant audience bodies v rest

/-- What a page makes of the worker's phase. -/
def afterPage (tenant : Tenant) : Paging → Phase × Counters
  | .more p => (.paging tenant p, {})
  | .complete audience => (.announcing tenant audience, {})
  | .failed cause => (.failing cause, failure)
  | .crashed text => (.ended (.broken text), {})

/-- The step of a worker that calls the world. -/
def act (room : Mailroom σ) (k : Worker) (s : σ) : Option (Phase × Counters × σ) :=
  let c := k.campaign
  match k.phase with
  | .lookup =>
    match room.world.tenant c.id c.tenant s with
    | (.ok tenant, s) => some (.paging tenant (.start c.segment room.settings.pageSize), {}, s)
    | (.fault cause, s) => some (.failing (tenantFault c.tenant cause), failure, s)
    | (.crash text, s) => some (.ended (.broken text), {}, s)
  | .paging tenant p =>
    let (reply, s) := room.world.page c.id (p.request tenant) s
    let (phase, counters) := afterPage tenant (p.take reply)
    some (phase, Pager.tick reply + counters, s)
  | .content tenant audience bodies next rest =>
    match Content.resolve room.world c.id tenant next.template s with
    | (.ok html, s) => some (toContent room c tenant audience (bodies ++ [html]) rest, {}, s)
    | (.fault cause, s) => some (.failing cause, failure, s)
    | (.crash text, s) => some (.ended (.broken text), {}, s)
  | .posting t m rest => some (.awaiting t m rest, {}, s)
  | .awaiting t m rest =>
    match room.world.send c.id m.mail s with
    | (.crash text, s) => some (.ended (.broken text), {}, s)
    | (reply, s) =>
      let (t, percent) := t.note m reply.isOk
      some (.reporting t percent rest, Tally.tick m reply.isOk, s)
  | _ => none

/-- The event that a worker has to bring to the desk, and the phase after it. -/
def report (room : Mailroom σ) (k : Worker) : Option (Event × Phase) :=
  let c := k.campaign
  match k.phase with
  | .announcing tenant audience =>
    some (.running c.id audience.length, toContent room c tenant audience [] c.variants)
  | .reporting t percent rest => some (.progress c.id percent, toPosting c t rest)
  | .failing cause => some (.failed c.id cause.message, .ended (.failed (cause.forCampaign c.id)))
  | _ => none

end Worker

end Mailshot
