import Mailshot.Json.Reader
import Mailshot.Settings.Basic
import Mailshot.Settings.Environment
import Mailshot.Settings.Field
import Mailshot.Settings.Json
import Mailshot.Toml.Reader

/-!
# Loading settings

Settings are put together from a file and the environment, the environment over the file, and
defaults for what neither gives.

* `FileFormat.ofName?`: the format of a file, told from its name;
* `SettingsFile.find`: the file that a path leads to;
* `Settings.ofTree`: the settings of a tree of values;
* `Settings.load`: the settings of a file and an environment.
-/

namespace Mailshot

/-- A format of files with settings. -/
inductive FileFormat where
  | toml
  | json
  deriving DecidableEq, Repr

namespace FileFormat

/-- What follows the last point of a name, unless the name starts with it. -/
def extension? (name : List Char) : Option (List Char) :=
  let base := (name.reverse.takeWhile (· ≠ '/')).reverse
  let after := (base.reverse.takeWhile (· ≠ '.')).reverse
  if after.length + 1 < base.length then some after else none

/-- The format of a file, told from its name. -/
def ofName? (name : String) : Option FileFormat :=
  match extension? name.toList with
  | some ext =>
    if ext = ['t', 'o', 'm', 'l'] then some .toml
    else if ext = ['j', 's', 'o', 'n'] then some .json
    else none
  | none => none

/-- The value of a text in a format. -/
def parse? (f : FileFormat) (text : String) : Option Json :=
  match f with
  | .toml => Toml.parse text
  | .json => Json.parse text

/-- A text without a byte order mark at its start. -/
def dropMark (text : String) : String :=
  match text.toList with
  | c :: rest => if c = '\uFEFF' then String.ofList rest else text
  | [] => text

end FileFormat

/-- Why settings could not be loaded. -/
inductive LoadFlaw where
  /-- The text of the file is not in its format, or its value is no table. -/
  | file
  | field (flaw : Field.Flaw)
  deriving DecidableEq, Repr

/-- A file that may hold settings. -/
structure SettingsFile where
  name : String
  text : String
  deriving DecidableEq, Repr

namespace SettingsFile

/-- Where the file of a path may be: at the path itself, or with an ending of its format after it.
-/
def places (path : String) : List String :=
  [path, path ++ ".toml", path ++ ".json"]

/-- The file that a path leads to, where `text?` knows what is at a place. -/
def find (text? : String → Option String) (path : String) : Option SettingsFile :=
  (places path).findSome? fun name => (text? name).map fun text => { name, text }

/-- An integer that does not have a sign of 64 bits to spare is a number. -/
def widen : Json → Json
  | .int i => if 9223372036854775807 < i then .double (.ofInt i) else .int i
  | v => v

mutual

/-- A value as a setting: integers have 64 bits with a sign. -/
def settle : Json → Json
  | .list items => .list (settleItems items)
  | .object ms => .object (settleMembers ms)
  | v => widen v

/-- Values as settings. -/
def settleItems : List Json → List Json
  | [] => []
  | v :: rest => settle v :: settleItems rest

/-- Members as settings. -/
def settleMembers : List (String × Json) → List (String × Json)
  | [] => []
  | (key, v) :: rest => (key, settle v) :: settleMembers rest

end

/-- The settings in a file.  A file of no known format has none. -/
def layer (f : SettingsFile) : Except LoadFlaw Layer :=
  match FileFormat.ofName? f.name with
  | none => .ok []
  | some format =>
    match format.parse? (FileFormat.dropMark f.text) with
    | some (.object ms) => .ok (settleMembers ms)
    | _ => .error .file

end SettingsFile

open Mailshot.Field

namespace DispatchSettings

/-- The section of a tree. -/
def ofTree (v : Json) : Except Flaw DispatchSettings := do
  let get ← section? fields v
  let size := count? Share.limit
  let maxConcurrency ← optional get "max_concurrency" Missing.maxConcurrency size
  let maxRecipientsPerSend ←
    optional get "max_recipients_per_send" Missing.maxRecipientsPerSend size
  let audiencePageSize ← optional get "audience_page_size" Missing.audiencePageSize size
  let eventBufferPerCampaign ←
    optional get "event_buffer_per_campaign" Missing.eventBufferPerCampaign size
  let pollIntervalSecs ← optional get "poll_interval_secs" Missing.pollIntervalSecs size
  return { maxConcurrency, maxRecipientsPerSend, audiencePageSize, eventBufferPerCampaign,
           pollIntervalSecs }

end DispatchSettings

namespace EmailSettings

/-- The section of a tree. -/
def ofTree (v : Json) : Except Flaw EmailSettings := do
  let get ← section? fields v
  let apiKey ← optional get "api_key" default text?
  let fromEmail ← optional get "from_email" Missing.fromEmail text?
  let fromName ← optional get "from_name" Missing.fromName text?
  let openTracking ← optional get "open_tracking" Missing.tracking flag?
  let clickTracking ← optional get "click_tracking" Missing.tracking flag?
  return { apiKey, fromEmail, fromName, openTracking, clickTracking }

end EmailSettings

namespace MetricsSettings

/-- The section of a tree. -/
def ofTree (v : Json) : Except Flaw MetricsSettings := do
  let get ← section? fields v
  let enabled ← optional get "enabled" default flag?
  let port ← optional get "port" Missing.port (count? greatest16)
  return { enabled, port }

end MetricsSettings

namespace Settings

/-- The settings of a tree. -/
def ofTree (v : Json) : Except Flaw Settings := do
  let get ← section? fields v
  let nodeId ← optional get "node_id" Missing.nodeId text?
  let dispatch ← optional get "dispatch" default DispatchSettings.ofTree
  let email ← optional get "email" default EmailSettings.ofTree
  let metrics ← optional get "metrics" default MetricsSettings.ofTree
  return { nodeId, dispatch, email, metrics }

/-- The settings of a file, if there is one, and an environment. -/
def load (file : Option SettingsFile) (vars : List (String × String)) :
    Except LoadFlaw Settings := do
  let below ←
    match file with
    | some f => f.layer
    | none => .ok []
  (ofTree (Layer.stack [below, Environment.layer vars])).mapError .field

end Settings

end Mailshot
