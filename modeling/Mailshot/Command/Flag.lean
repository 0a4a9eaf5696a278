/-!
# Flags of the command

The flags that the command knows, with what is told of them.  Some take a value, two also have a
letter, and two are taken from the environment where the arguments do not give them.

* `Flag.all`: the flags in the order in which they are told;
* `Flag.label`: a flag with the name of its value.
-/

namespace Mailshot.Command

/-- The name of the command. -/
def commandName : String := "campaign-dispatcher"

/-- A flag of the command. -/
inductive Flag where
  | config
  | nodeId
  | concurrency
  | pollInterval
  | once
  | demo
  | help
  | version
  deriving DecidableEq, Repr, Inhabited

namespace Flag

/-- All flags in the order in which they are told. -/
def all : List Flag :=
  [.config, .nodeId, .concurrency, .pollInterval, .once, .demo, .help, .version]

/-- The name, written after two hyphens. -/
def name : Flag → String
  | .config => "config"
  | .nodeId => "node-id"
  | .concurrency => "concurrency"
  | .pollInterval => "poll-interval"
  | .once => "once"
  | .demo => "demo"
  | .help => "help"
  | .version => "version"

/-- The letter, written after one hyphen. -/
def letter? : Flag → Option Char
  | .help => some 'h'
  | .version => some 'V'
  | _ => none

/-- The name of the value, if the flag takes one. -/
def value? : Flag → Option String
  | .config => some "CONFIG"
  | .nodeId => some "NODE_ID"
  | .concurrency => some "CONCURRENCY"
  | .pollInterval => some "POLL_INTERVAL"
  | _ => none

/-- The variable that gives the value where the arguments do not. -/
def envName? : Flag → Option String
  | .config => some "CAMPAIGN_DISPATCH_CONFIG"
  | .nodeId => some "CAMPAIGN_DISPATCH__NODE_ID"
  | _ => none

/-- What the flag is for. -/
def about : Flag → String
  | .config => "Optional TOML config file (environment still overrides)"
  | .nodeId => "Node identifier (overrides config)"
  | .concurrency => "Maximum campaigns dispatched in parallel (overrides config)"
  | .pollInterval => "Seconds between dispatch runs (overrides config)"
  | .once => "Perform a single dispatch run and exit"
  | .demo => "Seed the in-memory store with demo campaigns"
  | .help => "Print help"
  | .version => "Print version"

/-- The flag with the name of its value. -/
def label (f : Flag) : String :=
  match f.value? with
  | some value => s!"--{f.name} <{value}>"
  | none => s!"--{f.name}"

/-- The flag of a name. -/
def ofName? (name : String) : Option Flag :=
  all.find? fun f => f.name = name

/-- The flag of a letter. -/
def ofLetter? (letter : Char) : Option Flag :=
  all.find? fun f => f.letter? = some letter

end Flag

end Mailshot.Command
