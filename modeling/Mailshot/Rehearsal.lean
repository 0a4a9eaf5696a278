import Mailshot.World

/-!
# Rehearsals

A world that follows a script: what each call comes back with is written down beforehand, by
identifier and by how often it was made.  Only the rows of campaigns and the number of calls change.

* `Script`: what is written down;
* `Script.world`: the world that follows it.
-/

namespace Mailshot

/-- What happens to some calls with an identifier: to one of them, counted from zero, or to all. -/
structure Mishap where
  id : Uuid
  call : Option Nat := none
  reply : Reply Unit

/-- Where the members of a segment come from. -/
inductive Source where
  /-- Members in pages of the size asked for; the page of one number may fail. -/
  | members (members : List String) (failing : Option (Nat × Reply Page))
  /-- One reply for each call, whatever is asked for. -/
  | replies (replies : List (Reply Page))

/-- What the world answers. -/
structure Script where
  due : Option (Reply (List Campaign)) := none
  tenants : List (Uuid × Reply Tenant) := []
  segments : List (Uuid × Source) := []
  templates : List (Uuid × Reply Template) := []
  updates : List Mishap := []
  sends : List Mishap := []

/-- The rows of campaigns, and the identifiers that calls were made with, the last one first. -/
structure Rehearsal where
  rows : List Campaign
  updates : List Uuid := []
  sends : List Uuid := []
  pages : List Uuid := []
  deriving DecidableEq, Repr, Inhabited

namespace Rehearsal

/-- Puts a row in the place of the first one with its identifier. -/
def replaceFirst (row : Campaign) : List Campaign → List Campaign
  | [] => []
  | c :: rest => if c.id = row.id then row :: rest else c :: replaceFirst row rest

end Rehearsal

namespace Mishap

/-- What the script says of a call with an identifier that was made `before` times. -/
def find? (mishaps : List Mishap) (id : Uuid) (before : Nat) : Option (Reply Unit) :=
  (mishaps.find? fun m => m.id = id && m.call.all (· = before)).map (·.reply)

end Mishap

namespace Source

/-- The offset that a cursor stands for. -/
def offset (cursor : String) : Nat :=
  cursor.toNat?.getD 0

/-- The members from an offset on, `limit` at most, and the cursor of the next page. -/
def slice (list : List String) (offset limit : Nat) : Page :=
  let stop := offset + limit
  ⟨(list.drop offset).take limit, if stop < list.length then toString stop else ""⟩

/-- The reply to a call for a page that was made `before` times. -/
def reply (request : PageRequest) (before : Nat) : Source → Reply Page
  | .members list failing =>
    let start := offset request.cursor
    match failing with
    | some (number, failure) =>
      if start / request.limit = number then failure else .ok (slice list start request.limit)
    | none => .ok (slice list start request.limit)
  | .replies list => list[before]?.getD (.fault (.audienceResolution "script exhausted"))

end Source

namespace Script

/-- The campaigns that are due. -/
def dueReply (script : Script) (cutoff : Int) (r : Rehearsal) : Reply (List Campaign) :=
  script.due.getD (.ok (r.rows.filter (·.isDue cutoff)))

/-- Stores a row, unless the script has it otherwise. -/
def update (script : Script) (row : Campaign) (r : Rehearsal) : Reply Unit × Rehearsal :=
  let noted := { r with updates := row.id :: r.updates }
  match Mishap.find? script.updates row.id (r.updates.count row.id) with
  | some reply => (reply, noted)
  | none => (.ok (), { noted with rows := Rehearsal.replaceFirst row r.rows })

/-- A page of a segment. -/
def page (script : Script) (request : PageRequest) (r : Rehearsal) : Reply Page × Rehearsal :=
  let noted := { r with pages := request.segment :: r.pages }
  match script.segments.lookup request.segment with
  | some source => (source.reply request (r.pages.count request.segment), noted)
  | none => (.fault (.audienceResolution "unknown segment"), noted)

/-- Takes mail, unless the script has it otherwise. -/
def send (script : Script) (mail : Mail) (r : Rehearsal) : Reply Unit × Rehearsal :=
  ((Mishap.find? script.sends mail.variant (r.sends.count mail.variant)).getD (.ok ()),
    { r with sends := mail.variant :: r.sends })

/-- The world that follows a script. -/
def world (script : Script) : World Rehearsal where
  due cutoff r := (script.dueReply cutoff r, r)
  update row r := script.update row r
  tenant _ id r :=
    ((script.tenants.lookup id).getD (.fault (.tenantLookup id "not found")), r)
  page _ request r := script.page request r
  template _ _ id r :=
    ((script.templates.lookup id).getD (.fault (.contentFetch s!"email {id} not found")), r)
  send _ mail r := script.send mail r

end Script

end Mailshot
