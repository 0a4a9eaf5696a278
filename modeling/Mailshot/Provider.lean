import Mailshot.Campaign.Json
import Mailshot.Fault
import Mailshot.Settings.Basic
import Mailshot.Table
import Mailshot.World

/-!
# The mail provider

Takes mail in calls of one to ten recipients and counts what it took, by variant.  Each recipient is
addressed alone, so none learns of another.

* `Provider.send`: takes a call or refuses it;
* `Provider.payload`: what goes over the wire for a call.
-/

namespace Mailshot

/-- A provider with its counts. -/
structure Provider where
  settings : EmailSettings := {}
  /-- Recipients by variant. -/
  sent : Table Uuid Nat := .empty
  /-- Calls taken. -/
  requests : Nat := 0
  deriving Repr, Inhabited

namespace Provider

/-- The recipients of all calls taken for a variant. -/
def sentCount (p : Provider) (variant : Uuid) : Nat :=
  (p.sent.get? variant).getD 0

/-- The recipients of all calls taken. -/
def total (p : Provider) : Nat :=
  p.sent.values.foldl (· + ·) 0

/-- Why a call with some number of recipients is refused. -/
def refusal? (recipients : Nat) : Option Fault :=
  if recipients = 0 then some (.send "no recipients")
  else if batchCap < recipients then
    some (.send s!"{recipients} recipients exceeds provider limit of {batchCap}")
  else none

/-- Takes a call or refuses it. -/
def send (p : Provider) (mail : Mail) : Except Fault Unit × Provider :=
  match refusal? mail.recipients.length with
  | some fault => (.error fault, p)
  | none =>
    let count := p.sentCount mail.variant + mail.recipients.length
    (.ok (), { p with sent := p.sent.insert mail.variant count, requests := p.requests + 1 })

/-- The part of a payload that is for one recipient alone. -/
def personalization (variant : Uuid) (address : String) : Json :=
  .object [("to", .list [.object [("email", .text address)]]),
    ("custom_args", .object [("campaign_email_id", variant.toJson)])]

/-- What goes over the wire for a call. -/
def payload (settings : EmailSettings) (mail : Mail) : Json :=
  .object [
    ("personalizations", .list (mail.recipients.map (personalization mail.variant))),
    ("from", .object [("email", .text mail.sender), ("name", .text settings.fromName)]),
    ("subject", .text mail.subject),
    ("content", .list [.object [("type", .text "text/html"), ("value", .text mail.html)]]),
    ("tracking_settings", .object [
      ("click_tracking", .object [("enable", .bool settings.clickTracking)]),
      ("open_tracking", .object [("enable", .bool settings.openTracking)])])]

end Provider

end Mailshot
