import Mailshot.Settings.Basic
import Mailshot.Campaign.Json

/-!
# Settings as JSON

Settings read from and written as JSON.  Reading is strict: a field may be missing, but one that is
there has to be of its type, and null is of none.
-/

namespace Mailshot

open Json (Record)

/-- The greatest number of 16 bits. -/
def greatest16 : Nat := 65535

namespace DispatchSettings

/-- The fields of the section, in order. -/
def fields : List String :=
  ["max_concurrency", "max_recipients_per_send", "audience_page_size", "event_buffer_per_campaign",
    "poll_interval_secs"]

/-- The section as an object. -/
def toJson (s : DispatchSettings) : Json :=
  .object [("max_concurrency", .nat s.maxConcurrency),
    ("max_recipients_per_send", .nat s.maxRecipientsPerSend),
    ("audience_page_size", .nat s.audiencePageSize),
    ("event_buffer_per_campaign", .nat s.eventBufferPerCampaign),
    ("poll_interval_secs", .nat s.pollIntervalSecs)]

/-- The section from its fields. -/
def ofJson? (j : Json) : Option DispatchSettings := do
  let r ← Record.ofJson? fields j
  let size := Json.natTo? greatest64
  let maxConcurrency ← r.optional "max_concurrency" Missing.maxConcurrency size
  let maxRecipientsPerSend ←
    r.optional "max_recipients_per_send" Missing.maxRecipientsPerSend size
  let audiencePageSize ← r.optional "audience_page_size" Missing.audiencePageSize size
  let eventBufferPerCampaign ←
    r.optional "event_buffer_per_campaign" Missing.eventBufferPerCampaign size
  let pollIntervalSecs ← r.optional "poll_interval_secs" Missing.pollIntervalSecs size
  return { maxConcurrency, maxRecipientsPerSend, audiencePageSize, eventBufferPerCampaign,
           pollIntervalSecs }

end DispatchSettings

namespace EmailSettings

/-- The fields of the section, in order. -/
def fields : List String :=
  ["api_key", "from_email", "from_name", "open_tracking", "click_tracking"]

/-- The section as an object. -/
def toJson (s : EmailSettings) : Json :=
  .object [("api_key", .text s.apiKey), ("from_email", .text s.fromEmail),
    ("from_name", .text s.fromName), ("open_tracking", .bool s.openTracking),
    ("click_tracking", .bool s.clickTracking)]

/-- The section from its fields. -/
def ofJson? (j : Json) : Option EmailSettings := do
  let r ← Record.ofJson? fields j
  let apiKey ← r.optional "api_key" default Json.string?
  let fromEmail ← r.optional "from_email" Missing.fromEmail Json.string?
  let fromName ← r.optional "from_name" Missing.fromName Json.string?
  let openTracking ← r.optional "open_tracking" Missing.tracking Json.bool?
  let clickTracking ← r.optional "click_tracking" Missing.tracking Json.bool?
  return { apiKey, fromEmail, fromName, openTracking, clickTracking }

end EmailSettings

namespace MetricsSettings

/-- The fields of the section, in order. -/
def fields : List String := ["enabled", "port"]

/-- The section as an object. -/
def toJson (s : MetricsSettings) : Json :=
  .object [("enabled", .bool s.enabled), ("port", .nat s.port)]

/-- The section from its fields. -/
def ofJson? (j : Json) : Option MetricsSettings := do
  let r ← Record.ofJson? fields j
  let enabled ← r.optional "enabled" default Json.bool?
  let port ← r.optional "port" Missing.port (Json.natTo? greatest16)
  return { enabled, port }

end MetricsSettings

namespace Settings

/-- The fields of the settings, in order. -/
def fields : List String := ["node_id", "dispatch", "email", "metrics"]

/-- The settings as an object. -/
def toJson (s : Settings) : Json :=
  .object [("node_id", .text s.nodeId), ("dispatch", s.dispatch.toJson), ("email", s.email.toJson),
    ("metrics", s.metrics.toJson)]

/-- The settings from their fields. -/
def ofJson? (j : Json) : Option Settings := do
  let r ← Record.ofJson? fields j
  let nodeId ← r.optional "node_id" Missing.nodeId Json.string?
  let dispatch ← r.optional "dispatch" default DispatchSettings.ofJson?
  let email ← r.optional "email" default EmailSettings.ofJson?
  let metrics ← r.optional "metrics" default MetricsSettings.ofJson?
  return { nodeId, dispatch, email, metrics }

end Settings

end Mailshot
