import Mailshot.Campaign.Json
import Mailshot.Dispatch
import Mailshot.Json.Printer

/-!
# The log

What the command does is told in lines, each a JSON object with a time, a level, a message with
fields, and the part of the program that it comes from.

* `LogLine.toJson`: a line as it is written;
* `Report.log`: what is told of a dispatch.
-/

namespace Mailshot

namespace Command

/-- How grave a line is. -/
inductive Level where
  | info
  | warn
  | error
  deriving DecidableEq, Repr, Inhabited

/-- The name of a level. -/
def Level.name : Level → String
  | .info => "INFO"
  | .warn => "WARN"
  | .error => "ERROR"

/-- A line of the log. -/
structure LogLine where
  level : Level := .info
  /-- The part of the program that the line comes from. -/
  target : String
  message : String
  fields : List (String × Json) := []
  deriving Inhabited

/-- Parts of the program. -/
def commandPart : String := "campaign_dispatcher"
def dispatchPart : String := "campaign_dispatch::dispatcher"
def statusPart : String := "campaign_dispatch::status"

namespace LogLine

/-- The message with the fields. -/
def body (line : LogLine) : Json :=
  .object (("message", .text line.message) :: line.fields)

/-- The line as it is written at a time. -/
def toJson (time : String) (line : LogLine) : Json :=
  .object [("timestamp", .text time), ("level", .text line.level.name), ("fields", line.body),
    ("target", .text line.target)]

end LogLine

end Command

open Command

/-- What is told of a campaign that was mailed out. -/
def Summary.log (s : Summary) : LogLine where
  target := dispatchPart
  message := "Campaign dispatched"
  fields := [("campaign_id", s.campaign.toJson), ("audience", .nat s.audience),
    ("attempted", .nat s.attempted), ("failed_batches", .nat s.failedBatches)]

namespace Report

/-- What is told before anything is mailed. -/
def beginning (r : Report) (cutoff : Int) : List LogLine :=
  match r.due with
  | none | some 0 => []
  | some due =>
    [{ target := dispatchPart, message := "Dispatching due campaigns"
       fields := [("cutoff", .int cutoff), ("due", .nat due)] }]

/-- What is told when all is done. -/
def ending (r : Report) : List LogLine :=
  (r.handled.map fun n =>
    ({ target := statusPart, message := "Status actor drained and stopped"
       fields := [("events", .nat n)] } : LogLine)).toList
  ++ (r.totals.map fun t =>
    ({ target := dispatchPart, message := "Dispatch run finished"
       fields := [("campaigns", .nat t.campaigns), ("completed", .nat t.completed),
         ("failed", .nat t.failed)] } : LogLine)).toList

/-- What is told of a dispatch of what was due at a second. -/
def log (r : Report) (cutoff : Int) : List LogLine :=
  r.beginning cutoff ++ r.summaries.map Summary.log ++ r.ending

end Report

end Mailshot
