import Mailshot.Body
import Mailshot.Fault
import Mailshot.Number.Decimal
import Mailshot.Share
import Mailshot.Table
import Mailshot.World

/-!
# The store

Tenants, the members of segments, templates and campaigns, each by identifier.  Identifiers and
times come from outside, so the store is four finite maps and nothing else.

* `Store.due`: the campaigns to send, the longest due first;
* `Store.update`: a campaign's row takes the place of the one before;
* `Store.page`: a page of a segment, from the offset that its cursor spells;
* `Store.template`: a template, for the tenant that it belongs to.
-/

namespace Mailshot

/-- A store. -/
structure Store where
  tenants : Table Uuid Tenant := .empty
  segments : Table Uuid (List String) := .empty
  templates : Table Uuid Template := .empty
  campaigns : Table Uuid Campaign := .empty
  deriving Repr, Inhabited

/-- A variant before it has an identifier. -/
structure VariantDraft where
  template : Uuid
  subject : String
  ratio : Nat
  deriving DecidableEq, Repr, Inhabited

/-- A campaign before it has an identifier. -/
structure Draft where
  tenant : Uuid
  name : String
  segment : Uuid
  schedule : Int
  variants : List VariantDraft
  deriving DecidableEq, Repr, Inhabited

namespace Draft

/-- A variant of a campaign, under an identifier. -/
def variant (campaign id : Uuid) (d : VariantDraft) : Variant :=
  { id, campaign, template := d.template, subject := d.subject, ratio := d.ratio }

/-- The pending campaign of a draft, made at time `now`.  There is an identifier for each variant.
-/
def campaign (d : Draft) (id : Uuid) (variants : List Uuid) (now : Instant) : Campaign :=
  { id, tenant := d.tenant, name := d.name, segment := d.segment
    variants := List.zipWith (variant id) variants d.variants
    schedule := d.schedule, createdAt := now, updatedAt := now }

end Draft

/-- A template whose body is stored from HTML. -/
def Template.ofHtml (id tenant : Uuid) (name html : String) : Template :=
  ⟨id, tenant, name, Body.encode html⟩

namespace Store

/-- The store with nothing in it. -/
def empty : Store := {}

/-- Keeps a tenant. -/
def insertTenant (s : Store) (t : Tenant) : Store :=
  { s with tenants := s.tenants.insert t.id t }

/-- Takes a tenant away. -/
def removeTenant (s : Store) (id : Uuid) : Store :=
  { s with tenants := s.tenants.erase id }

/-- Keeps the members of a segment. -/
def insertSegment (s : Store) (id : Uuid) (members : List String) : Store :=
  { s with segments := s.segments.insert id members }

/-- Keeps a template. -/
def insertTemplate (s : Store) (t : Template) : Store :=
  { s with templates := s.templates.insert t.id t }

/-- Keeps a campaign. -/
def insertCampaign (s : Store) (c : Campaign) : Store :=
  { s with campaigns := s.campaigns.insert c.id c }

/-- A campaign's row. -/
def campaign? (s : Store) (id : Uuid) : Option Campaign :=
  s.campaigns.get? id

/-- All campaigns, the newest first. -/
def newestFirst (s : Store) : List Campaign :=
  s.campaigns.values.mergeSort fun a b => !a.createdAt.before b.createdAt

/-- The campaigns that are due, the longest due first. -/
def due (s : Store) (cutoff : Int) : List Campaign :=
  (s.campaigns.values.filter (·.isDue cutoff)).mergeSort fun a b => a.schedule ≤ b.schedule

/-- Puts a row in the place of the one before.  There has to be one. -/
def update (s : Store) (row : Campaign) : Except Fault Store :=
  if s.campaigns.contains row.id then .ok (s.insertCampaign row)
  else .error (.persistence s!"campaign {row.id} not found")

/-- A tenant. -/
def tenant (s : Store) (id : Uuid) : Except Fault Tenant :=
  match s.tenants.get? id with
  | some t => .ok t
  | none => .error (.tenantLookup id "tenant not found")

/-- The offset that a cursor spells; the empty one is the start. -/
def offset? (cursor : String) : Option Nat :=
  if cursor = "" then some 0
  else (Number.Decimal.natTo Share.limit cursor.toList).toOption

/-- The members from an offset on, `limit` at most and one at least, and the cursor of the next
page, empty after the last member. -/
def pageFrom (members : List String) (offset limit : Nat) : Page :=
  let start := min offset members.length
  let stop := min members.length (Share.add start (max limit 1))
  { recipients := (members.drop start).take (stop - start)
    nextCursor := if stop < members.length then toString stop else "" }

/-- A page of a segment.  A cursor that spells no offset is noticed before a segment that is not
there. -/
def page (s : Store) (request : PageRequest) : Except Fault Page :=
  match offset? request.cursor with
  | none =>
    .error (.audienceResolution s!"invalid cursor {Text.Quoted.quote request.cursor}")
  | some offset =>
    match s.segments.get? request.segment with
    | none => .error (.audienceResolution s!"segment {request.segment} not found")
    | some members => .ok (pageFrom members offset request.limit)

/-- A template, unless it is another tenant's. -/
def template (s : Store) (tenant : Tenant) (id : Uuid) : Except Fault Template :=
  let missing := Fault.contentFetch s!"email {id} not found for tenant {tenant.id}"
  match s.templates.get? id with
  | some t => if t.tenant = tenant.id then .ok t else .error missing
  | none => .error missing

end Store

end Mailshot
