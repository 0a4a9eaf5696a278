import Mailshot.Settings.Load

/-!
# The settings one by one

There are thirteen settings: one at the top and the others in three sections.  Each has a place in a
tree of values, a kind of values that it takes, and a default.  A tree with its sections in order is
read setting by setting, none of them having to do with another.

* `Leaf`: the settings, with their places `Leaf.top` and `Leaf.name?`, their keys `Leaf.key` and
  their names in the environment, `Leaf.var`;
* `Leaf.convert`, `Leaf.get`: what a setting makes of a value, and what it is in the end;
* `Leaf.at?`, `Leaf.read`: what a tree has for a setting;
* `Settings.ofTree_sectioned`: a tree is read setting by setting.
-/

namespace Mailshot

open Mailshot.Field

/-- What a setting may be. -/
inductive Value where
  | text (s : String)
  | count (n : Nat)
  | flag (b : Bool)
  deriving DecidableEq, Repr

/-- The settings. -/
inductive Leaf where
  | nodeId
  | maxConcurrency
  | maxRecipientsPerSend
  | audiencePageSize
  | eventBufferPerCampaign
  | pollIntervalSecs
  | apiKey
  | fromEmail
  | fromName
  | openTracking
  | clickTracking
  | enabled
  | port
  deriving DecidableEq, Repr

/-- What is a table among the names at the top. -/
def Settings.sections : List String := ["dispatch", "email", "metrics"]

namespace Leaf

/-- The name at the top that leads to a setting: its own, or that of its section. -/
def top : Leaf → String
  | nodeId => "node_id"
  | maxConcurrency | maxRecipientsPerSend | audiencePageSize | eventBufferPerCampaign
  | pollIntervalSecs => "dispatch"
  | apiKey | fromEmail | fromName | openTracking | clickTracking => "email"
  | enabled | port => "metrics"

/-- The name of a setting in its section, if it is in one. -/
def name? : Leaf → Option String
  | nodeId => none
  | maxConcurrency => some "max_concurrency"
  | maxRecipientsPerSend => some "max_recipients_per_send"
  | audiencePageSize => some "audience_page_size"
  | eventBufferPerCampaign => some "event_buffer_per_campaign"
  | pollIntervalSecs => some "poll_interval_secs"
  | apiKey => some "api_key"
  | fromEmail => some "from_email"
  | fromName => some "from_name"
  | openTracking => some "open_tracking"
  | clickTracking => some "click_tracking"
  | enabled => some "enabled"
  | port => some "port"

/-- The place of a setting, with a mark between its parts. -/
def place (leaf : Leaf) (mark : String) : String :=
  match leaf.name? with
  | none => leaf.top
  | some name => leaf.top ++ mark ++ name

/-- The key of a setting. -/
def key (leaf : Leaf) : String := leaf.place "."

/-- The name of a setting among variables, in lower case. -/
def var (leaf : Leaf) : String := "campaign_dispatch__" ++ leaf.place "__"

/-- What a setting makes of a value. -/
def convert (leaf : Leaf) (v : Json) : Except Flaw Value :=
  match leaf with
  | nodeId | apiKey | fromEmail | fromName => (text? v).map .text
  | maxConcurrency | maxRecipientsPerSend | audiencePageSize | eventBufferPerCampaign
  | pollIntervalSecs => (count? Share.limit v).map .count
  | openTracking | clickTracking | enabled => (flag? v).map .flag
  | port => (count? greatest16 v).map .count

/-- What a setting is. -/
def get (s : Settings) : Leaf → Value
  | nodeId => .text s.nodeId
  | maxConcurrency => .count s.dispatch.maxConcurrency
  | maxRecipientsPerSend => .count s.dispatch.maxRecipientsPerSend
  | audiencePageSize => .count s.dispatch.audiencePageSize
  | eventBufferPerCampaign => .count s.dispatch.eventBufferPerCampaign
  | pollIntervalSecs => .count s.dispatch.pollIntervalSecs
  | apiKey => .text s.email.apiKey
  | fromEmail => .text s.email.fromEmail
  | fromName => .text s.email.fromName
  | openTracking => .flag s.email.openTracking
  | clickTracking => .flag s.email.clickTracking
  | enabled => .flag s.metrics.enabled
  | port => .count s.metrics.port

/-- The default of a setting. -/
def default (leaf : Leaf) : Value := leaf.get {}

/-- What a setting makes of what there is for it, if there is anything. -/
def read (leaf : Leaf) : Option Json → Except Flaw Value
  | some v => leaf.convert v
  | none => .ok leaf.default

/-- What a section has for a setting in it. -/
def within? (leaf : Leaf) (v : Json) : Option Json :=
  match leaf.name? with
  | none => some v
  | some name => Table.find name (Layer.membersOf v)

/-- What a tree has for a setting. -/
def at? (leaf : Leaf) (tree : Json) : Option Json :=
  (Table.find leaf.top (Layer.membersOf tree)).bind leaf.within?

theorem top_mem (leaf : Leaf) : leaf.top ∈ Settings.fields := by
  cases leaf <;> decide

/-- Only tables are sections. -/
theorem top_mem_sections_iff (leaf : Leaf) : leaf.top ∈ Settings.sections ↔ leaf.name?.isSome := by
  cases leaf <;> decide

end Leaf

/-- A tree in which the sections that there are are tables. -/
structure Sectioned (ms : List (String × Json)) : Prop where
  table {name : String} {v : Json} : name ∈ Settings.sections → Table.find name ms = some v →
    ∃ sub, v = .object sub

/-- A field reads if its setting does, and then the setting is what the field reads.  What stands for
the field where it is missing has to be the default of the setting in the settings as a whole. -/
theorem Leaf.exists_optional {α : Type} {read : Json → Except Flaw α} {wrap : α → Value}
    (leaf : Leaf) (get : String → Option Json) (name : String) (d : α)
    (hconvert : ∀ v, leaf.convert v = (read v).map wrap) (hdefault : leaf.default = wrap d)
    (h : ∃ value, leaf.read (get name) = .ok value) :
    ∃ x, optional get name d read = .ok x ∧ leaf.read (get name) = .ok (wrap x) := by
  obtain ⟨value, hvalue⟩ := h
  rw [Field.optional]
  cases hget : get name with
  | none => exact ⟨d, rfl, congrArg Except.ok hdefault⟩
  | some v =>
      rw [hget, Leaf.read, hconvert] at hvalue
      cases hread : read v with
      | error flaw => simp [hread, Except.map] at hvalue
      | ok x => exact ⟨x, hread, by rw [Leaf.read, hconvert, hread]; rfl⟩

theorem bind_ok {α β : Type} {a : Except Flaw α} {x : α} {next : α → Except Flaw β}
    (h : a = .ok x) : (a >>= next) = next x := by
  rw [h]
  rfl

/-! ### Sections -/

/-- A section is read setting by setting: if all its settings read, it does, and they are what it
has.  The section stands among all settings by `within`. -/
def ReadsWithin {σ : Type} (ofTree : Json → Except Flaw σ) (top : String)
    (within : σ → Settings) : Prop :=
  ∀ sub : List (String × Json),
    (∀ leaf : Leaf, leaf.top = top → ∃ value, leaf.read (leaf.within? (.object sub)) = .ok value) →
    ∃ s, ofTree (.object sub) = .ok s ∧ ∀ leaf : Leaf, leaf.top = top →
      leaf.read (leaf.within? (.object sub)) = .ok (leaf.get (within s))

theorem DispatchSettings.readsWithin :
    ReadsWithin DispatchSettings.ofTree "dispatch" fun s => { dispatch := s } := by
  intro sub h
  let get (name : String) := Table.find name sub
  have hget : section? fields (.object sub) = .ok get := rfl
  obtain ⟨a, ha, hread_a⟩ := Leaf.exists_optional .maxConcurrency get "max_concurrency"
    Missing.maxConcurrency (fun _ => rfl) rfl (h .maxConcurrency rfl)
  obtain ⟨b, hb, hread_b⟩ := Leaf.exists_optional .maxRecipientsPerSend get
    "max_recipients_per_send" Missing.maxRecipientsPerSend (fun _ => rfl) rfl
    (h .maxRecipientsPerSend rfl)
  obtain ⟨c, hc, hread_c⟩ := Leaf.exists_optional .audiencePageSize get "audience_page_size"
    Missing.audiencePageSize (fun _ => rfl) rfl (h .audiencePageSize rfl)
  obtain ⟨d, hd, hread_d⟩ := Leaf.exists_optional .eventBufferPerCampaign get
    "event_buffer_per_campaign" Missing.eventBufferPerCampaign (fun _ => rfl) rfl
    (h .eventBufferPerCampaign rfl)
  obtain ⟨e, he, hread_e⟩ := Leaf.exists_optional .pollIntervalSecs get "poll_interval_secs"
    Missing.pollIntervalSecs (fun _ => rfl) rfl (h .pollIntervalSecs rfl)
  refine ⟨⟨a, b, c, d, e⟩, ?_, fun leaf htop => ?_⟩
  · simp only [ofTree]
    rw [bind_ok hget, bind_ok ha, bind_ok hb, bind_ok hc, bind_ok hd, bind_ok he]
    rfl
  · cases leaf with
    | maxConcurrency => exact hread_a
    | maxRecipientsPerSend => exact hread_b
    | audiencePageSize => exact hread_c
    | eventBufferPerCampaign => exact hread_d
    | pollIntervalSecs => exact hread_e
    | nodeId | apiKey | fromEmail | fromName | openTracking | clickTracking | enabled | port =>
        exact absurd htop (by decide)

theorem EmailSettings.readsWithin :
    ReadsWithin EmailSettings.ofTree "email" fun s => { email := s } := by
  intro sub h
  let get (name : String) := Table.find name sub
  have hget : section? fields (.object sub) = .ok get := rfl
  obtain ⟨a, ha, hread_a⟩ := Leaf.exists_optional .apiKey get "api_key" default (fun _ => rfl) rfl
    (h .apiKey rfl)
  obtain ⟨b, hb, hread_b⟩ := Leaf.exists_optional .fromEmail get "from_email" Missing.fromEmail
    (fun _ => rfl) rfl (h .fromEmail rfl)
  obtain ⟨c, hc, hread_c⟩ := Leaf.exists_optional .fromName get "from_name" Missing.fromName
    (fun _ => rfl) rfl (h .fromName rfl)
  obtain ⟨d, hd, hread_d⟩ := Leaf.exists_optional .openTracking get "open_tracking"
    Missing.tracking (fun _ => rfl) rfl (h .openTracking rfl)
  obtain ⟨e, he, hread_e⟩ := Leaf.exists_optional .clickTracking get "click_tracking"
    Missing.tracking (fun _ => rfl) rfl (h .clickTracking rfl)
  refine ⟨⟨a, b, c, d, e⟩, ?_, fun leaf htop => ?_⟩
  · simp only [ofTree]
    rw [bind_ok hget, bind_ok ha, bind_ok hb, bind_ok hc, bind_ok hd, bind_ok he]
    rfl
  · cases leaf with
    | apiKey => exact hread_a
    | fromEmail => exact hread_b
    | fromName => exact hread_c
    | openTracking => exact hread_d
    | clickTracking => exact hread_e
    | nodeId | maxConcurrency | maxRecipientsPerSend | audiencePageSize | eventBufferPerCampaign
    | pollIntervalSecs | enabled | port => exact absurd htop (by decide)

theorem MetricsSettings.readsWithin :
    ReadsWithin MetricsSettings.ofTree "metrics" fun s => { metrics := s } := by
  intro sub h
  let get (name : String) := Table.find name sub
  have hget : section? fields (.object sub) = .ok get := rfl
  obtain ⟨a, ha, hread_a⟩ := Leaf.exists_optional .enabled get "enabled" default (fun _ => rfl) rfl
    (h .enabled rfl)
  obtain ⟨b, hb, hread_b⟩ := Leaf.exists_optional .port get "port" Missing.port (fun _ => rfl) rfl
    (h .port rfl)
  refine ⟨⟨a, b⟩, ?_, fun leaf htop => ?_⟩
  · simp only [ofTree]
    rw [bind_ok hget, bind_ok ha, bind_ok hb]
    rfl
  · cases leaf with
    | enabled => exact hread_a
    | port => exact hread_b
    | nodeId | maxConcurrency | maxRecipientsPerSend | audiencePageSize | eventBufferPerCampaign
    | pollIntervalSecs | apiKey | fromEmail | fromName | openTracking | clickTracking =>
        exact absurd htop (by decide)

/-! ### Trees -/

variable {ms : List (String × Json)}

/-- A section that is missing has the defaults, and one that is there is read. -/
theorem ReadsWithin.exists_optional {σ : Type} {ofTree : Json → Except Flaw σ} {top : String}
    {within : σ → Settings} (hreads : ReadsWithin ofTree top within) (hms : Sectioned ms)
    (htop : top ∈ Settings.sections) (d : σ) (hdefault : within d = {})
    (h : ∀ leaf : Leaf, ∃ value, leaf.read (leaf.at? (.object ms)) = .ok value) :
    ∃ s, optional (fun name => Table.find name ms) top d ofTree = .ok s ∧
      ∀ leaf : Leaf, leaf.top = top →
        leaf.read (leaf.at? (.object ms)) = .ok (leaf.get (within s)) := by
  have hat (leaf : Leaf) (hleaf : leaf.top = top) :
      leaf.at? (.object ms) = (Table.find top ms).bind leaf.within? := by
    rw [Leaf.at?, hleaf]
    rfl
  rw [Field.optional]
  cases hfind : Table.find top ms with
  | none =>
      refine ⟨d, rfl, fun leaf hleaf => ?_⟩
      rw [hat leaf hleaf, hfind, hdefault]
      rfl
  | some v =>
      obtain ⟨sub, rfl⟩ := hms.table htop hfind
      have hwithin (leaf : Leaf) (hleaf : leaf.top = top) :
          leaf.at? (.object ms) = leaf.within? (.object sub) := by
        rw [hat leaf hleaf, hfind, Option.bind_some]
      obtain ⟨s, hs, hread⟩ := hreads sub fun leaf hleaf => hwithin leaf hleaf ▸ h leaf
      exact ⟨s, hs, fun leaf hleaf => hwithin leaf hleaf ▸ hread leaf hleaf⟩

/-- **A tree is read setting by setting**: if all settings read, the tree does, and it has each of
them as it reads. -/
theorem Settings.ofTree_sectioned (hms : Sectioned ms)
    (h : ∀ leaf : Leaf, ∃ value, leaf.read (leaf.at? (.object ms)) = .ok value) :
    ∃ s, ofTree (.object ms) = .ok s ∧
      ∀ leaf : Leaf, leaf.read (leaf.at? (.object ms)) = .ok (leaf.get s) := by
  let get (name : String) := Table.find name ms
  have hget : section? fields (.object ms) = .ok get := rfl
  have hnode : Leaf.nodeId.at? (.object ms) = get "node_id" := Option.bind_fun_some _
  obtain ⟨node, ha, hread_a⟩ := Leaf.exists_optional .nodeId get "node_id" Missing.nodeId
    (fun _ => rfl) rfl (hnode ▸ h .nodeId)
  obtain ⟨dispatch, hb, hread_b⟩ :=
    DispatchSettings.readsWithin.exists_optional hms (by decide) default rfl h
  obtain ⟨email, hc, hread_c⟩ := EmailSettings.readsWithin.exists_optional hms (by decide) default rfl h
  obtain ⟨metrics, hd, hread_d⟩ :=
    MetricsSettings.readsWithin.exists_optional hms (by decide) default rfl h
  refine ⟨⟨node, dispatch, email, metrics⟩, ?_, fun leaf => ?_⟩
  · simp only [ofTree]
    rw [bind_ok hget, bind_ok ha, bind_ok hb, bind_ok hc, bind_ok hd]
    rfl
  · cases leaf with
    | nodeId => exact hnode ▸ hread_a
    | maxConcurrency | maxRecipientsPerSend | audiencePageSize | eventBufferPerCampaign
    | pollIntervalSecs => exact hread_b _ rfl
    | apiKey | fromEmail | fromName | openTracking | clickTracking => exact hread_c _ rfl
    | enabled | port => exact hread_d _ rfl

end Mailshot
