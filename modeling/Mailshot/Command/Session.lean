import Mailshot.Command.Arguments
import Mailshot.Command.Log
import Mailshot.Command.Usage
import Mailshot.Office
import Mailshot.Registry
import Mailshot.Settings.Load
import Mailshot.Store.Demo

/-!
# Sessions of the command

A session puts its settings together, opens a store and a provider, and mails out what is due: once,
or again and again until it is interrupted.  What to do about due campaigns is a handler in a
registry, and each run is a payload handed to it.  A run that fails is told of and forgotten.

* `Choices.configure`: the settings, with a log of how they came about;
* `Session.begin`: a session before its first run;
* `Session.run`: one run;
* `transcript`: a whole session up to an interruption after its first run.
-/

namespace Mailshot.Command

/-- A reading of the clock: time since the epoch. -/
structure Moment where
  seconds : Nat
  nanos : Nat := 0
  deriving DecidableEq, Repr, Inhabited

/-- The point in time. -/
def Moment.instant (m : Moment) : Instant := .ofEpochSeconds m.seconds m.nanos

/-! ### Settings -/

/-- Settings with the choices made over them. -/
def Choices.applyTo (c : Choices) (s : Settings) : Settings :=
  { s with
    nodeId := c.nodeId.getD s.nodeId
    dispatch := { s.dispatch with
      maxConcurrency := c.concurrency.getD s.dispatch.maxConcurrency
      pollIntervalSecs := c.pollInterval.getD s.dispatch.pollIntervalSecs } }

/-- What keeps settings from being loaded, in words. -/
def flawText : LoadFlaw → String
  | .file => "the file is malformed"
  | .field .kind => "a setting has the wrong type"
  | .field .shape => "a setting is where a section belongs"

/-- A line from the command itself. -/
def notice (message : String) (fields : List (String × Json)) : LogLine :=
  { target := commandPart, message, fields }

/-- What is told of the settings. -/
def told (s : Settings) : LogLine :=
  notice "Configuration loaded"
    [("node_id", .text s.nodeId), ("max_concurrency", .nat s.dispatch.maxConcurrency),
      ("poll_interval_secs", .nat s.dispatch.pollIntervalSecs)]

/-- The settings, and what is told while they are put together.  Settings that cannot be loaded are
replaced by the defaults. -/
def Choices.configure (c : Choices) (file : Option SettingsFile)
    (vars : List (String × String)) : Settings × List LogLine :=
  let (base, trouble) : Settings × List LogLine :=
    match Settings.load file vars with
    | .ok s => (s, [])
    | .error flaw =>
      ({}, [{ level := .warn, target := commandPart
              message := "Failed to load config, using defaults"
              fields := [("error", .text (flawText flaw))] }])
  let s := c.applyTo base
  (s, notice "Campaign Dispatcher starting up" [] :: trouble ++ [told s])

/-- What is in the way of listening on a port where someone else does. -/
def addressInUse : String := "Address already in use (os error 98)"

/-- What is told of the port where counters are shown, with what is in the way of listening there.
-/
def exporterLog (s : Settings) (trouble : Option String) : List LogLine :=
  if !s.metrics.enabled then []
  else
    match trouble with
    | some text =>
      [{ level := .error, target := commandPart, message := "Failed to start metrics exporter"
         fields := [("error", .text s!"failed to create HTTP listener: {text}")] }]
    | none => [notice "Metrics exporter started" [("port", .nat s.metrics.port)]]

/-! ### Runs -/

/-- The kind of payload that asks for a run. -/
def dueKind : String := "campaign.dispatch_due"

/-- A session with its registry and its office, and what it has counted. -/
structure Session where
  registry : Registry (Mailroom Office)
  office : Office
  counters : Counters := {}
  /-- The campaigns that were due last. -/
  due : Option Nat := none
  deriving Inhabited

namespace Session

/-- A session before its first run. -/
def begin (settings : Settings) (store : Store) : Session × LogLine :=
  let room := Office.mailroom settings
  let registry : Registry (Mailroom Office) := (Registry.register {} dueKind room).2
  let line : LogLine :=
    { target := dispatchPart, message := "Campaign dispatcher initialized"
      fields := [("max_concurrency", .nat settings.dispatch.concurrency),
        ("batch_size", .nat settings.dispatch.batchSize),
        ("page_size", .nat settings.dispatch.pageSize)] }
  ({ registry, office := .ofStore store settings }, line)

/-- A payload that asks for a run at a second. -/
def payload (second : Int) : Json := .object [("as_of", .int second)]

/-- The second that a payload asks for, or that of the clock. -/
def cutoff (m : Moment) (payload : Json) : Int :=
  match payload.get? "as_of" with
  | some (.int second) => second
  | _ => m.seconds

/-- Mails out what is due, and puts what is told after what was told before. -/
def mailOut (m : Moment) (room : Mailroom Office) (payload : Json) (s : Session × List LogLine) :
    Reply Unit × (Session × List LogLine) :=
  let (session, lines) := s
  let second := cutoff m payload
  let (report, office) := room.dispatch second m.instant session.office
  let session := { session with
    office, counters := session.counters + report.counters, due := report.due.or session.due }
  let lines := lines ++ report.log second
  match report.verdict with
  | .ok => (.ok (), session, lines)
  | .failed cause => (.fault cause, session, lines)
  | .broken => (.crash "", session, lines)

/-- One run: what is told, whether the session can go on, and the session after it. -/
def run (m : Moment) (s : Session) : List LogLine × Bool × Session :=
  let (reply, s, lines) := s.registry.dispatch (mailOut m) dueKind (payload m.seconds) (s, [])
  match reply with
  | .ok () => (lines, true, s)
  | .fault cause =>
    (lines ++ [{ level := .warn, target := commandPart
                 message := "Dispatch run reported an error"
                 fields := [("error", .text cause.message)] }], true, s)
  | .crash _ => (lines, false, s)

end Session

/-- What is told when runs are about to begin, and when an interruption ends them. -/
def readyLine : LogLine := notice "Campaign Dispatcher is ready" []
def interruptedLine : LogLine := notice "Received Ctrl+C, shutting down" []

/-! ### Whole sessions -/

/-- What the command finds around it. -/
structure Surroundings where
  vars : List (String × String)
  /-- The settings file that a path leads to. -/
  file : String → Option SettingsFile
  /-- What is in the way of listening on a port. -/
  trouble : Nat → Option String
  /-- Identifiers to give out. -/
  fresh : Nat → Uuid
  now : Moment

/-- What is seen of the command. -/
structure Transcript where
  exitCode : Nat := 0
  output : String := ""
  errors : String := ""
  log : List LogLine := []
  deriving Inhabited

/-- Exit codes: of arguments that cannot be right, and of a session that broke off. -/
def refusedCode : Nat := 2
def brokenCode : Nat := 101

/-- The store of a session. -/
def Choices.store (c : Choices) (fresh : Nat → Uuid) (m : Moment) : Store :=
  if c.demo then .demo fresh m.instant m.instant m.seconds else .empty

/-- A session up to the end of its first run, or to an interruption after it. -/
def Choices.transcript (c : Choices) (around : Surroundings) : Transcript :=
  let (settings, opening) := c.configure (c.config.bind around.file) around.vars
  let (session, begun) := Session.begin settings (c.store around.fresh around.now)
  let before := opening ++ exporterLog settings (around.trouble settings.metrics.port) ++ [begun]
    ++ if c.once then [] else [readyLine]
  let (lines, whole, _) := session.run around.now
  if whole then
    { log := before ++ lines ++ if c.once then [] else [interruptedLine] }
  else { exitCode := brokenCode, log := before ++ lines }

/-- What is seen of the command with some arguments. -/
def transcript (arguments : List String) (around : Surroundings) : Transcript :=
  match Arguments.parse arguments with
  | .ok (.run c) => (c.fill around.vars).transcript around
  | .ok .help => { output := helpText around.vars }
  | .ok .version => { output := versionText }
  | .error refusal => { exitCode := refusedCode, errors := refusal.text }

end Mailshot.Command
