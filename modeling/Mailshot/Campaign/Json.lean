import Mailshot.Campaign
import Mailshot.Instant.Text
import Mailshot.Json.Record

/-!
# Campaign records as JSON

How campaigns, variants, tenants and templates are written as JSON and read back.  Writing gives an
object with every field; reading takes an object or a list, and defaults for some fields.
-/

namespace Mailshot

open Json (Record)

/-- The greatest numbers of 8, 32 and 64 bits, and the range of signed ones. -/
def greatest8 : Nat := 255
def greatest32 : Nat := 4294967295
def greatest64 : Nat := 18446744073709551615
def leastSigned64 : Int := -9223372036854775808
def greatestSigned64 : Int := 9223372036854775807

/-- A UUID is written as its text. -/
def Uuid.toJson (u : Uuid) : Json := .text u.toString

/-- A UUID from its text. -/
def Uuid.ofJson? (v : Json) : Option Uuid := do
  Uuid.parse? (← Json.string? v)

/-- An instant is written as its text. -/
def Instant.toJson (t : Instant) : Json := .text t.toString

/-- An instant from its text. -/
def Instant.ofJson? (v : Json) : Option Instant := do
  Instant.parse? (← Json.string? v)

namespace Status

/-- The name of a status. -/
def name : Status → String
  | pending => "pending"
  | running => "running"
  | failed => "failed"

/-- The status of a name. -/
def ofName? (s : String) : Option Status :=
  if s = "pending" then some .pending
  else if s = "running" then some .running
  else if s = "failed" then some .failed
  else none

/-- A status is written as its name. -/
def toJson (s : Status) : Json := .text s.name

/-- A status from its name. -/
def ofJson? (v : Json) : Option Status := do
  ofName? (← Json.caseName? v)

end Status

namespace Variant

/-- The fields of a variant, in order. -/
def fields : List String :=
  ["id", "campaign_id", "email_id", "subject", "ratio", "open_count", "click_counts"]

/-- A variant as an object. -/
def toJson (v : Variant) : Json :=
  .object [("id", v.id.toJson), ("campaign_id", v.campaign.toJson), ("email_id", v.template.toJson),
    ("subject", .text v.subject), ("ratio", .nat v.ratio), ("open_count", .nat v.opens),
    ("click_counts", .nat v.clicks)]

/-- A variant from its fields. -/
def ofJson? (j : Json) : Option Variant := do
  let r ← Record.ofJson? fields j
  let id ← r.required "id" Uuid.ofJson?
  let campaign ← r.required "campaign_id" Uuid.ofJson?
  let template ← r.required "email_id" Uuid.ofJson?
  let subject ← r.required "subject" Json.string?
  let ratio ← r.required "ratio" (Json.natTo? greatest32)
  let opens ← r.optional "open_count" 0 (Json.natTo? greatest64)
  let clicks ← r.optional "click_counts" 0 (Json.natTo? greatest64)
  return { id, campaign, template, subject, ratio, opens, clicks }

end Variant

namespace Campaign

/-- The fields of a campaign, in order. -/
def fields : List String :=
  ["id", "tenant_id", "name", "description", "segment_id", "segment_size", "progress", "status",
    "failure_reason", "emails", "schedule", "created_at", "updated_at"]

/-- A campaign as an object. -/
def toJson (c : Campaign) : Json :=
  .object [("id", c.id.toJson), ("tenant_id", c.tenant.toJson), ("name", .text c.name),
    ("description", Json.text? c.description), ("segment_id", c.segment.toJson),
    ("segment_size", .nat c.segmentSize), ("progress", .nat c.progress),
    ("status", c.status.toJson), ("failure_reason", Json.text? c.failureReason),
    ("emails", .list (c.variants.map Variant.toJson)), ("schedule", .int c.schedule),
    ("created_at", c.createdAt.toJson), ("updated_at", c.updatedAt.toJson)]

/-- A campaign from its fields. -/
def ofJson? (j : Json) : Option Campaign := do
  let r ← Record.ofJson? fields j
  let id ← r.required "id" Uuid.ofJson?
  let tenant ← r.required "tenant_id" Uuid.ofJson?
  let name ← r.required "name" Json.string?
  let description ← r.optional "description" none (Json.nullable? Json.string?)
  let segment ← r.required "segment_id" Uuid.ofJson?
  let segmentSize ← r.optional "segment_size" 0 (Json.natTo? greatest64)
  let progress ← r.optional "progress" 0 (Json.natTo? greatest8)
  let status ← r.required "status" Status.ofJson?
  let failureReason ← r.optional "failure_reason" none (Json.nullable? Json.string?)
  let variants ← r.required "emails" (Json.listOf? Variant.ofJson?)
  let schedule ← r.required "schedule" (Json.intIn? leastSigned64 greatestSigned64)
  let createdAt ← r.required "created_at" Instant.ofJson?
  let updatedAt ← r.required "updated_at" Instant.ofJson?
  return { id, tenant, name, description, segment, segmentSize, progress, status, failureReason,
           variants, schedule, createdAt, updatedAt }

end Campaign

namespace Tenant

/-- The fields of a tenant, in order. -/
def fields : List String := ["id", "name", "from_email"]

/-- A tenant as an object. -/
def toJson (t : Tenant) : Json :=
  .object [("id", t.id.toJson), ("name", .text t.name), ("from_email", Json.text? t.fromEmail)]

/-- A tenant from its fields. -/
def ofJson? (j : Json) : Option Tenant := do
  let r ← Record.ofJson? fields j
  let id ← r.required "id" Uuid.ofJson?
  let name ← r.required "name" Json.string?
  let fromEmail ← r.optional "from_email" none (Json.nullable? Json.string?)
  return { id, name, fromEmail }

end Tenant

namespace Template

/-- The fields of a template, in order. -/
def fields : List String := ["id", "tenant_id", "name", "html_encoded"]

/-- A template as an object. -/
def toJson (t : Template) : Json :=
  .object [("id", t.id.toJson), ("tenant_id", t.tenant.toJson), ("name", .text t.name),
    ("html_encoded", .text t.body)]

/-- A template from its fields. -/
def ofJson? (j : Json) : Option Template := do
  let r ← Record.ofJson? fields j
  let id ← r.required "id" Uuid.ofJson?
  let tenant ← r.required "tenant_id" Uuid.ofJson?
  let name ← r.required "name" Json.string?
  let body ← r.required "html_encoded" Json.string?
  return { id, tenant, name, body }

end Template

end Mailshot
