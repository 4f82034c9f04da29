import Strongbox.Text.Number

/-! Scanning of one level of a command line: options in their written forms,
switches, and the word that names a subcommand. An option's value is settled
when the next option is met, so an unknown argument right behind it is reported
first. -/

namespace Strongbox.CommandLine

/-- Why the arguments do not make a command, or ask for help instead. -/
inductive UsageError where
  | missingRequired
  | invalidValue
  | badNumber
  | unknownArgument
  | invalidSubcommand
  | missingSubcommand
  | repeatedOption
  | valueForSwitch
  | help
  | version
  | nothingGiven
deriving DecidableEq, Repr

/-- Asking for help or for the version is no failure. -/
def UsageError.exitCode : UsageError → Nat
  | .help | .version => 0
  | _ => 2

def UsageError.message : UsageError → String
  | .missingRequired => "a required option is missing"
  | .invalidValue => "an option has no value, or one it does not know"
  | .badNumber => "an option needs a number"
  | .unknownArgument => "an argument is not understood"
  | .invalidSubcommand => "there is no such subcommand"
  | .missingSubcommand => "a subcommand is missing"
  | .repeatedOption => "an option is given twice"
  | .valueForSwitch => "an option that takes no value is given one"
  | .help => "help is asked for"
  | .version => "the version is asked for"
  | .nothingGiven => "there are no arguments"

inductive ValueRule where
  | text
  | path
  | number
  | choice (names : List String)
deriving DecidableEq, Repr

def ValueRule.fault? : ValueRule → String → Option UsageError
  | .text, _ => none
  | .path, value => if value = "" then some .invalidValue else none
  | .number, value => if (Text.parseNumber? value).isNone then some .badNumber else none
  | .choice names, value => if value ∈ names then none else some .invalidValue

structure Valued where
  long : String
  rule : ValueRule
  required : Bool := false
deriving Repr

inductive SwitchKind where
  | once
  | counted
  | help
  | version
deriving DecidableEq, Repr

structure Switch where
  long : String
  short : Option Char := none
  kind : SwitchKind := .once
deriving Repr

/-- What is understood at one level of the command line. -/
structure Level where
  valued : List Valued
  switches : List Switch
  subcommands : List String := []
deriving Repr

inductive Setting where
  | value (text : String)
  | count (n : Nat)
deriving DecidableEq, Repr

abbrev Settings := List (String × Setting)

namespace Settings

def value? (s : Settings) (name : String) : Option String :=
  match s.lookup name with
  | some (.value text) => some text
  | _ => none

def count (s : Settings) (name : String) : Nat :=
  match s.lookup name with
  | some (.count n) => n
  | _ => 0

def has (s : Settings) (name : String) : Bool := (s.lookup name).isSome

end Settings

/-- The state of a scan. -/
structure Scan where
  settings : Settings := []
  /-- An option that is not settled, with its value if that was met. -/
  pending : Option (Valued × Option String) := none
  /-- After `--`, nothing is an option any more. -/
  escaped : Bool := false

namespace Scan

def isWaiting (s : Scan) : Bool := s.pending matches some (_, none)

/-- Sets an option that was not set before to a value that fits its rule. -/
def assign (s : Scan) (o : Valued) (value : String) : Except UsageError Scan :=
  if s.settings.has o.long then .error .repeatedOption
  else
    match o.rule.fault? value with
    | some e => .error e
    | none => .ok { s with settings := (o.long, .value value) :: s.settings }

def settle (s : Scan) : Except UsageError Scan :=
  match s.pending with
  | none => .ok s
  | some (_, none) => .error .invalidValue
  | some (o, some value) => { s with pending := none }.assign o value

/-- The highest count of a switch. -/
def maxCount : Nat := 255

def flip (s : Scan) (w : Switch) : Except UsageError Scan := do
  let s ← s.settle
  match w.kind with
  | .help => .error .help
  | .version => .error .version
  | .once =>
    if s.settings.has w.long then .error .repeatedOption
    else .ok { s with settings := (w.long, .count 1) :: s.settings }
  | .counted =>
    let n := min (s.settings.count w.long + 1) maxCount
    .ok { s with settings := (w.long, .count n) :: s.settings }

/-- Takes in an option in its long form, with the value behind `=` if there is one. -/
def long (level : Level) (s : Scan) (name : String) (attached : Option String) :
    Except UsageError Scan :=
  match level.valued.find? (·.long = name), level.switches.find? (·.long = name), attached with
  | some o, _, some value => do (← s.settle).assign o value
  | some o, _, none => do return { ← s.settle with pending := some (o, none) }
  | none, some w, none => s.flip w
  | none, some _, some _ => .error .valueForSwitch
  | none, none, _ => .error .unknownArgument

/-- Takes in a cluster of switches in their short form. -/
def shorts (level : Level) (s : Scan) : List Char → Except UsageError Scan
  | [] => .ok s
  | c :: cs =>
    match level.switches.find? (·.short = some c) with
    | some w => do (← s.flip w).shorts level cs
    | none => .error .unknownArgument

/-- A word where none is expected. A level with subcommands takes it for a wrong
one, unless it is a right one behind `--`. -/
def stray (level : Level) (s : Scan) (word : String) : UsageError :=
  if level.subcommands = [] then .unknownArgument
  else if s.escaped ∧ word ∈ level.subcommands then .unknownArgument
  else .invalidSubcommand

/-- Splits the body of a long option at its first `=`. -/
def splitValue (body : List Char) : String × Option String :=
  let name := body.takeWhile (· ≠ '=')
  let attached := match body.dropWhile (· ≠ '=') with
    | [] => none
    | _ :: value => some (String.ofList value)
  (String.ofList name, attached)

/-- Scans arguments up to a subcommand, and yields that with the arguments behind it. -/
def run (level : Level) : List String → Scan →
    Except UsageError (Scan × Option (String × List String))
  | [], s => .ok (s, none)
  | arg :: rest, s =>
    if s.escaped then .error (s.stray level arg)
    else if !s.isWaiting && level.subcommands.contains arg then .ok (s, some (arg, rest))
    else
      match arg.toList with
      | ['-', '-'] => run level rest { s with escaped := true }
      | '-' :: '-' :: body => do
        let (name, attached) := splitValue body
        run level rest (← s.long level name attached)
      | '-' :: c :: cs => do run level rest (← s.shorts level (c :: cs))
      | _ =>
        match s.pending with
        | some (o, none) => run level rest { s with pending := some (o, some arg) }
        | _ => .error (s.stray level arg)

end Scan

end Strongbox.CommandLine
