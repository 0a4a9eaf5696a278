import Mailshot.Command.Exporter
import Mailshot.Command.Session
import Mailshot.Instant.Text
import Std.Async.Signal
import Std.Async.TCP
import Std.Internal.UV.System
import Std.Time.DateTime.Timestamp

/-!
# The command

What the pure session leaves to do: the environment, the clock, random numbers, files, the port for
counters, interruptions, and printing.  Nothing is decided here but when to run again.
-/

namespace Mailshot.Command

/-- Reads the clock. -/
def readClock : IO Moment := do
  let nanos := (← Std.Time.Timestamp.now).toNanosecondsSinceUnixEpoch.val.toNat
  return { seconds := nanos / Instant.secondNanos, nanos := nanos % Instant.secondNanos }

/-- Prints lines of the log. -/
def printLog (lines : List LogLine) : IO Unit := do
  let out ← IO.getStdout
  for line in lines do
    let time := (← readClock).instant.toMicrosString
    out.putStrLn (line.toJson time).render
  out.flush

/-- A new identifier. -/
def randomUuid : IO Uuid := do
  let bytes ← IO.getRandomBytes 16
  return .ofRandom (bytes.toList.foldl (fun n b => n * 256 + b.toNat) 0)

/-- The text at a place, if there is a file. -/
def readText? (place : String) : IO (Option String) := do
  match ← (IO.FS.readFile place).toBaseIO with
  | .ok text => return some text
  | .error _ => return none

/-- The settings file that a path leads to. -/
def findFile (path : String) : IO (Option SettingsFile) := do
  let texts ← (SettingsFile.places path).mapM fun place => return (place, ← readText? place)
  return SettingsFile.find (fun place => (texts.lookup place).join) path

/-- Gives everyone who connects the page of the moment. -/
partial def serve (server : Std.Async.TCP.Socket.Server) (page : IO.Ref String) :
    Std.Async.Async Unit := do
  let client ← server.accept
  let text ← page.get
  try
    client.send (response text).toUTF8
    client.shutdown
  catch _ => pure ()
  serve server page

/-- Shows a page on a port of all interfaces, and gives back what is in the way. -/
def listen (port : Nat) (page : IO.Ref String) : IO (Option String) := do
  let attempt : IO Unit := do
    let server ← Std.Async.TCP.Socket.Server.mk
    server.bind (.v4 ⟨.ofParts 0 0 0 0, port.toUInt16⟩)
    server.listen 128
    discard (serve server page).asTask
  match ← attempt.toBaseIO with
  | .ok () => return none
  | .error (.resourceBusy ..) => return some addressInUse
  | .error e => return some (toString e)

/-- A run now, with its log and a new page of counts. -/
def runNow (page : IO.Ref String) (s : Session) : IO (Bool × Session) := do
  let (lines, whole, s) := s.run (← readClock)
  printLog lines
  page.set s.page
  return (whole, s)

/-- How often to look for an interruption, in milliseconds. -/
def glance : UInt32 := 100

/-- Runs at `due` milliseconds of the clock, and again after each `period`, until `interrupted`. -/
partial def runOnAndOn (page : IO.Ref String) (interrupted : BaseIO Bool) (period due : Nat)
    (s : Session) : IO Nat := do
  if ← interrupted then
    printLog [interruptedLine]
    return 0
  else if (← IO.monoMsNow) < due then
    IO.sleep glance
    runOnAndOn page interrupted period due s
  else
    let (whole, s) ← runNow page s
    if whole then runOnAndOn page interrupted period (due + period) s else return brokenCode

/-- A session with these choices. -/
def runSession (c : Choices) (vars : List (String × String)) : IO Nat := do
  let file ← (c.config.mapM findFile : IO (Option (Option SettingsFile)))
  let (settings, opening) := c.configure file.join vars
  printLog opening
  let page ← IO.mkRef ""
  if settings.metrics.enabled then
    printLog (exporterLog settings (← listen settings.metrics.port page))
  let ids ← (List.range 9).mapM fun _ => randomUuid
  let store := c.store (fun i => ids.getD i Uuid.nil) (← readClock)
  let (session, begun) := Session.begin settings store
  printLog [begun]
  if c.once then
    let (whole, _) ← runNow page session
    return if whole then 0 else brokenCode
  else
    let waiter ← Std.Async.Signal.Waiter.mk .sigint false
    let signal ← waiter.wait
    printLog [readyLine]
    let period := max settings.dispatch.pollIntervalSecs 1 * 1000
    runOnAndOn page (IO.hasFinished signal) period (← IO.monoMsNow) session

end Mailshot.Command

open Mailshot Mailshot.Command

/-- Does what the arguments ask for. -/
def main (arguments : List String) : IO UInt32 := do
  let vars := (← Std.Internal.UV.System.osEnviron).toList
  match Arguments.parse arguments with
  | .ok (.run c) => return (← runSession (c.fill vars) vars).toUInt32
  | .ok .help =>
    IO.println (helpText vars)
    return 0
  | .ok .version =>
    IO.println versionText
    return 0
  | .error refusal =>
    (← IO.getStderr).putStr refusal.text
    return refusedCode.toUInt32
