import Mailshot.Command.Arguments

/-!
# What the command says of itself

* `helpText`: the flags and what they are for;
* `versionText`: the name with the version;
* `Refusal.text`: what is wrong with the arguments.
-/

namespace Mailshot.Command

/-- What the command is for. -/
def purpose : String := "Dispatches due email campaigns across their variants"

/-- The name with the version. -/
def versionText : String := s!"{commandName} 0.1.0"

/-- How the command is used, with some flags told. -/
def usage (flags : List Flag) : String :=
  let told := if flags.isEmpty then "[OPTIONS]" else " ".intercalate (flags.map Flag.label)
  s!"Usage: {commandName} {told}"

/-- The letter of a flag, or room for one, and the flag. -/
def spelling (flag : Flag) : String :=
  match flag.letter? with
  | some letter => s!"  -{letter}, {flag.label}"
  | none => s!"      {flag.label}"

/-- The variable of a flag with its value, if the flag has one. -/
def variableNote (vars : List (String × String)) (flag : Flag) : String :=
  match flag.envName? with
  | some name =>
    let value := (vars.lookup name).getD ""
    s!" [env: {name}={value}]"
  | none => ""

/-- The width of the column with the flags. -/
def column : Nat :=
  (Flag.all.map fun f => (spelling f).length).foldl max 0 + 2

/-- The line about a flag. -/
def flagLine (vars : List (String × String)) (flag : Flag) : String :=
  let left := spelling flag
  let room := String.ofList (List.replicate (column - left.length) ' ')
  let note := variableNote vars flag
  s!"{left}{room}{flag.about}{note}"

/-- The flags and what they are for. -/
def helpText (vars : List (String × String)) : String :=
  "\n".intercalate
    ([purpose, "", usage [], "", "Options:"] ++ Flag.all.map (flagLine vars))

namespace Refusal

/-- What is wrong. -/
def complaint : Refusal → String
  | .unexpected argument _ _ => s!"unexpected argument '{argument}' found"
  | .unexpectedValue value flag _ =>
    s!"unexpected value '{value}' for '{flag.label}' found; no more were expected"
  | .missingValue flag => s!"a value is required for '{flag.label}' but none was supplied"
  | .repeated flag => s!"the argument '{flag.label}' cannot be used multiple times"
  | .invalidValue value flag flaw =>
    s!"invalid value '{value}' for '{flag.label}': {flaw.message}"

/-- What may have been meant. -/
def tip? : Refusal → Option String
  | .unexpected _ (some flag) _ => some s!"  tip: a similar argument exists: '--{flag.name}'"
  | _ => none

/-- The flags to tell about use, where use is told. -/
def usage? : Refusal → Option (List Flag)
  | .unexpected _ _ flags => some flags
  | .unexpectedValue _ _ flags => some flags
  | .repeated _ => some []
  | .missingValue _ => none
  | .invalidValue _ _ _ => none

/-- All that is said. -/
def text (r : Refusal) : String :=
  "\n\n".intercalate
    ([s!"error: {r.complaint}"] ++ r.tip?.toList ++ (r.usage?.map usage).toList
      ++ ["For more information, try '--help'.\n"])

end Refusal

end Mailshot.Command
