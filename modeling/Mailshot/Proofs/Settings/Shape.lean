import Mailshot.Proofs.Json.Shape
import Mailshot.Settings.Json

/-!
# The ways to write settings

Settings may be given in part, as objects or as lists, at the top and in every section.  What is not
given stands for the default of the whole, so it makes no difference whether a section is missing or
empty, or has its defaults written out.

* `Settings.shape`: the fields of all settings, with their defaults in the settings as a whole;
* `Settings.default_of_empty`: defaults of fields and of sections agree;
* `Settings.reads`: what makes no difference, and what is refused;
* `Settings.ofJson?_forms`: the same in one statement.
-/

namespace Mailshot

open Json (Shape)
open Json.Shape (Reads Restated Wrong Takes reads_text reads_flag reads_count)

/-- How campaigns are mailed out, as fields. -/
def DispatchSettings.shape : Shape :=
  let base := ({} : Settings).dispatch
  .record [⟨"max_concurrency", .nat base.maxConcurrency, .count greatest64⟩,
    ⟨"max_recipients_per_send", .nat base.maxRecipientsPerSend, .count greatest64⟩,
    ⟨"audience_page_size", .nat base.audiencePageSize, .count greatest64⟩,
    ⟨"event_buffer_per_campaign", .nat base.eventBufferPerCampaign, .count greatest64⟩,
    ⟨"poll_interval_secs", .nat base.pollIntervalSecs, .count greatest64⟩]

/-- How mail looks to its provider, as fields. -/
def EmailSettings.shape : Shape :=
  let base := ({} : Settings).email
  .record [⟨"api_key", .text base.apiKey, .text⟩, ⟨"from_email", .text base.fromEmail, .text⟩,
    ⟨"from_name", .text base.fromName, .text⟩, ⟨"open_tracking", .bool base.openTracking, .flag⟩,
    ⟨"click_tracking", .bool base.clickTracking, .flag⟩]

/-- Whether and where counters are shown, as fields. -/
def MetricsSettings.shape : Shape :=
  let base := ({} : Settings).metrics
  .record [⟨"enabled", .bool base.enabled, .flag⟩, ⟨"port", .nat base.port, .count greatest16⟩]

/-- All settings as fields, some of them sections. -/
def Settings.shape : Shape :=
  let base : Settings := {}
  .record [⟨"node_id", .text base.nodeId, .text⟩,
    ⟨"dispatch", base.dispatch.toJson, DispatchSettings.shape⟩,
    ⟨"email", base.email.toJson, EmailSettings.shape⟩,
    ⟨"metrics", base.metrics.toJson, MetricsSettings.shape⟩]

theorem DispatchSettings.reads : Reads shape ofJson? :=
  Takes.reads
    (.field ⟨reads_count _, rfl⟩ fun _ => .field ⟨reads_count _, rfl⟩ fun _ =>
      .field ⟨reads_count _, rfl⟩ fun _ => .field ⟨reads_count _, rfl⟩ fun _ =>
      .field ⟨reads_count _, rfl⟩ fun _ => .done _)
    (by decide)

theorem EmailSettings.reads : Reads shape ofJson? :=
  Takes.reads
    (.field ⟨reads_text, rfl⟩ fun _ => .field ⟨reads_text, rfl⟩ fun _ =>
      .field ⟨reads_text, rfl⟩ fun _ => .field ⟨reads_flag, rfl⟩ fun _ =>
      .field ⟨reads_flag, rfl⟩ fun _ => .done _)
    (by decide)

theorem MetricsSettings.reads : Reads shape ofJson? :=
  Takes.reads (.field ⟨reads_flag, rfl⟩ fun _ => .field ⟨reads_count _, rfl⟩ fun _ => .done _)
    (by decide)

namespace Settings

/-- **Settings are read by their fields alone**, at the top and in the sections. -/
theorem reads : Reads shape ofJson? :=
  Takes.reads
    (.field ⟨reads_text, rfl⟩ fun _ => .field ⟨DispatchSettings.reads, rfl⟩ fun _ =>
      .field ⟨EmailSettings.reads, rfl⟩ fun _ => .field ⟨MetricsSettings.reads, rfl⟩ fun _ =>
      .done _)
    (by decide)

/-- **Both sets of defaults agree**: a section with nothing in it is the section that is missing. -/
theorem default_of_empty :
    DispatchSettings.ofJson? (.object []) = some default ∧
      EmailSettings.ofJson? (.object []) = some default ∧
      MetricsSettings.ofJson? (.object []) = some default :=
  ⟨rfl, rfl, rfl⟩

/-- To write nothing is to write all defaults. -/
theorem restated_default : Restated shape (.object []) (toJson {}) :=
  .missing (fun _ _ => List.not_mem_nil) (by simp)

/-- **How settings may be written.**  With nothing given there are the defaults.  Defaults left out
or written out, as a list or as an object, with keys that mean nothing or without, in any order, at
the top or in a section: the settings are the same.  And they are refused just if they are no record
or too long a list, or if a field that is there is not of its kind, as null never is. -/
theorem ofJson?_forms :
    ofJson? (.object []) = some {} ∧ Restated shape (.object []) (toJson {}) ∧
      (∀ v w, Restated shape v w → ofJson? v = ofJson? w) ∧
      (∀ v, ofJson? v = none ↔ Wrong shape v) ∧ ∀ inner, Wrong inner .null :=
  ⟨rfl, restated_default, fun _ _ => reads.restated, fun _ => reads.eq_none_iff,
    Json.Shape.wrong_null⟩

example : ofJson? (.list [.text "relay", .object [("max_concurrency", .int 3)]]) =
    some { nodeId := "relay", dispatch := { maxConcurrency := 3 } } := by
  decide

end Settings

end Mailshot
