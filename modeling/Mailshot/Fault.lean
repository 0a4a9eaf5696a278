import Mailshot.Uuid
import Mailshot.Text.Quoted

/-!
# Faults

What can go wrong when campaigns are mailed out, each cause with what is known of it, and the one
place where causes are put into words.

* `Fault.message`: the wording;
* `Fault.isUnrecoverable`: the causes that end the campaign they occur in;
* `Fault.forCampaign`: a cause blamed on a campaign.
-/

namespace Mailshot

/-- A cause of failure. -/
inductive Fault where
  | config (text : String)
  | tenantLookup (tenant : Uuid) (text : String)
  | audienceResolution (text : String)
  | contentFetch (text : String)
  | contentDecode (text : String)
  | send (text : String)
  | persistence (text : String)
  | campaignFailed (campaign : Uuid) (source : Fault)
  | worker (text : String)
  | unknownPayload (kind : String)
  | serialization (text : String)
  | internal (text : String)
  deriving DecidableEq, Repr, Inhabited

namespace Fault

/-- The wording of a fault. -/
def message : Fault → String
  | config text => s!"Configuration error: {text}"
  | tenantLookup tenant text => s!"Tenant lookup failed for {tenant}: {text}"
  | audienceResolution text => s!"Audience resolution failed: {text}"
  | contentFetch text => s!"Email content fetch failed: {text}"
  | contentDecode text => s!"Email content decode failed: {text}"
  | send text => s!"Email send failed: {text}"
  | persistence text => s!"Campaign persistence error: {text}"
  | campaignFailed campaign source => s!"Campaign {campaign} failed: " ++ source.message
  | worker text => s!"Campaign worker error: {text}"
  | unknownPayload kind => s!"No handler registered for payload kind: {kind}"
  | serialization text => s!"Serialization error: {text}"
  | internal text => s!"Internal error: {text}"

/-- Does the fault end the campaign that it occurs in, and mark it failed? -/
def isUnrecoverable : Fault → Bool
  | tenantLookup .. | audienceResolution _ | contentFetch _ | contentDecode _ => true
  | campaignFailed _ source => source.isUnrecoverable
  | _ => false

/-- The campaign that a fault is blamed on. -/
def campaign? : Fault → Option Uuid
  | campaignFailed campaign _ => some campaign
  | _ => none

/-- The cause behind a fault that is blamed on a campaign. -/
def source? : Fault → Option Fault
  | campaignFailed _ source => some source
  | _ => none

/-- The fault, blamed on a campaign. -/
def forCampaign (f : Fault) (campaign : Uuid) : Fault :=
  .campaignFailed campaign f

/-- A name for a task, which tells nothing. -/
def unnamedTask : String := "#"

/-- What is reported of a task, called `task`, that broke off with `text`. -/
def brokenTask (text : String) (task : String := unnamedTask) : String :=
  s!"task {task} panicked with message {Text.Quoted.quote text}"

end Fault

/-- What a call comes back with: a value, a fault, or a crash that breaks off the caller's task. -/
inductive Reply (α : Type) where
  | ok (value : α)
  | fault (cause : Fault)
  | crash (text : String)
  deriving DecidableEq, Repr

namespace Reply

/-- Did the call come back with a value? -/
def isOk : Reply α → Bool
  | ok _ => true
  | _ => false

/-- The reply of a call that cannot crash. -/
def ofExcept : Except Fault α → Reply α
  | .ok a => ok a
  | .error f => fault f

end Reply

end Mailshot
