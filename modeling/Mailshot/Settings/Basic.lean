import Mailshot.Share

/-!
# Settings

What an operator may choose.  Defaults are written down twice: for each field that is missing where
its section is given, `Missing`, and for a section that is missing as a whole, `default`.  Some
numbers are taken with bounds: a batch holds one to ten recipients, and of workers, page sizes and
buffered events there is at least one.
-/

namespace Mailshot

/-- The most recipients that a provider takes in one call. -/
def batchCap : Nat := 10

/-! ### Missing fields

What stands for a field that is not given where its section is. -/

namespace Missing

def nodeId : String := "node-01"
def maxConcurrency : Nat := 10
def maxRecipientsPerSend : Nat := batchCap
def audiencePageSize : Nat := 1000
def eventBufferPerCampaign : Nat := 100
def pollIntervalSecs : Nat := 60
def fromEmail : String := "campaigns@campaignexpress.io"
def fromName : String := "Campaign Express"
def tracking : Bool := true
def port : Nat := 9091

end Missing

/-! ### Sections -/

/-- How campaigns are mailed out. -/
structure DispatchSettings where
  /-- The most campaigns at work at the same time. -/
  maxConcurrency : Nat := Missing.maxConcurrency
  maxRecipientsPerSend : Nat := Missing.maxRecipientsPerSend
  audiencePageSize : Nat := Missing.audiencePageSize
  /-- Events that may wait, for each due campaign. -/
  eventBufferPerCampaign : Nat := Missing.eventBufferPerCampaign
  pollIntervalSecs : Nat := Missing.pollIntervalSecs
  deriving DecidableEq, Repr

/-- How mail looks to its provider. -/
structure EmailSettings where
  apiKey : String := ""
  fromEmail : String := Missing.fromEmail
  fromName : String := Missing.fromName
  openTracking : Bool := true
  clickTracking : Bool := true
  deriving DecidableEq, Repr

/-- Whether and where counters are shown. -/
structure MetricsSettings where
  enabled : Bool := false
  port : Nat := Missing.port
  deriving DecidableEq, Repr

instance : Inhabited DispatchSettings := ⟨{}⟩
instance : Inhabited EmailSettings := ⟨{}⟩
instance : Inhabited MetricsSettings := ⟨{}⟩

/-- All settings. -/
structure Settings where
  nodeId : String := Missing.nodeId
  dispatch : DispatchSettings := default
  email : EmailSettings := default
  metrics : MetricsSettings := default
  deriving DecidableEq, Repr

instance : Inhabited Settings := ⟨{}⟩

/-- The size of a batch: within the provider's cap, and one at least. -/
def batchSizeOf (requested : Nat) : Nat := min (max requested 1) batchCap

namespace DispatchSettings

/-- The recipients of one call. -/
def batchSize (s : DispatchSettings) : Nat := batchSizeOf s.maxRecipientsPerSend

/-- The campaigns at work at the same time. -/
def concurrency (s : DispatchSettings) : Nat := max s.maxConcurrency 1

/-- The members asked for in one page. -/
def pageSize (s : DispatchSettings) : Nat := max s.audiencePageSize 1

/-- The events that may wait during a run over `campaigns` campaigns, in 64 bits. -/
def eventBuffer (s : DispatchSettings) (campaigns : Nat) : Nat :=
  max (min Share.limit (campaigns * s.eventBufferPerCampaign)) 1

end DispatchSettings

end Mailshot
