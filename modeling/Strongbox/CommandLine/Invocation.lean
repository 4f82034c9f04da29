import Strongbox.Command.Run
import Strongbox.CommandLine.Scan

/-! The program's command line: two options understood at every level, and one
subcommand with options of its own. What is set behind the subcommand wins. -/

namespace Strongbox

inductive ProviderChoice where
  | sodium | dalek
deriving DecidableEq, Repr

structure Invocation where
  provider : ProviderChoice
  verbosity : Nat
  command : Command
deriving DecidableEq, Repr

namespace CommandLine

/-- The options understood at every level. -/
def sharedValued : List Valued := [⟨"provider", .choice ["sodium", "dalek"], false⟩]

def sharedSwitches : List Switch := [⟨"verbose", some 'v', .counted⟩, ⟨"help", some 'h', .help⟩]

/-- A subcommand: its name, its options, and the command they make. -/
structure Subcommand where
  name : String
  valued : List Valued
  switches : List Switch := []
  build : Settings → Command

def Subcommand.level (c : Subcommand) : Level where
  valued := c.valued ++ sharedValued
  switches := c.switches ++ sharedSwitches

/-- Input and output are the standard streams unless named. -/
def standardPath : String := "-"

def pathOr (s : Settings) (name : String) : Path := ⟨(s.value? name).getD standardPath⟩

def path? (s : Settings) (name : String) : Option Path := (s.value? name).map Path.mk

def text (s : Settings) (name : String) : String := (s.value? name).getD ""

def path (s : Settings) (name : String) : Path := ⟨text s name⟩

/-- The value options that a required path and an optional path make. -/
def requiredPath (name : String) : Valued := ⟨name, .path, true⟩

def optionalPath (name : String) : Valued := ⟨name, .path, false⟩

def boxOptions : List Valued :=
  [requiredPath "secret", requiredPath "peer", ⟨"nonce", .text, true⟩, optionalPath "input",
    optionalPath "output"]

def boxArgs (s : Settings) : BoxArgs where
  secret := path s "secret"
  peer := path s "peer"
  nonce := text s "nonce"
  input := pathOr s "input"
  output := pathOr s "output"

def subcommands : List Subcommand := [
  { name := "keygen"
    valued := [⟨"kind", .choice ["box", "sign"], true⟩, requiredPath "out-dir",
      ⟨"name", .text, true⟩, optionalPath "seed"]
    switches := [⟨"force", none, .once⟩]
    build := fun s => .keygen (if text s "kind" = "box" then .box else .sign) (path s "out-dir")
      (text s "name") (path? s "seed") (s.has "force") },
  { name := "seal", valued := boxOptions, build := fun s => .seal (boxArgs s) },
  { name := "open", valued := boxOptions, build := fun s => .unseal (boxArgs s) },
  { name := "sign"
    valued := [requiredPath "secret", optionalPath "input", optionalPath "output"]
    switches := [⟨"detached", none, .once⟩]
    build := fun s =>
      .sign (path s "secret") (pathOr s "input") (pathOr s "output") (s.has "detached") },
  { name := "verify"
    valued := [requiredPath "public", optionalPath "input", optionalPath "signature",
      optionalPath "output"]
    build := fun s =>
      .verify (path s "public") (pathOr s "input") (path? s "signature") (path? s "output") },
  { name := "hash"
    valued := [optionalPath "input", ⟨"chunk-size", .number, false⟩]
    build := fun s => .hash (pathOr s "input") ((s.value? "chunk-size").bind Text.parseNumber?) }]

/-- The subcommand that explains the others. -/
def helpName : String := "help"

/-- The level in front of the subcommand. -/
def rootLevel : Level where
  valued := sharedValued
  switches := sharedSwitches ++ [⟨"version", some 'V', .version⟩]
  subcommands := subcommands.map (·.name) ++ [helpName]

def Valued.usage (o : Valued) : String :=
  let body := "--" ++ o.long ++ " <" ++ o.long.toUpper ++ ">"
  if o.required then body else "[" ++ body ++ "]"

def Switch.usage (w : Switch) : String := "[--" ++ w.long ++ "]"

def Subcommand.usage (c : Subcommand) : String :=
  " ".intercalate (("  " ++ c.name) :: c.valued.map (·.usage) ++ c.switches.map (·.usage))

def usage : String :=
  let shared := sharedValued.map (·.usage) ++ sharedSwitches.map (·.usage)
  "\n".intercalate (("Usage: saltwrap " ++ " ".intercalate shared ++ " <COMMAND>") :: "" ::
    "Commands:" :: subcommands.map (·.usage))

def versionLine : String := "saltwrap 0.1.0"

/-- Help on one subcommand at most; deeper ones do not exist. -/
def helpOn : List String → UsageError
  | [] => .help
  | [name] => if name ∈ rootLevel.subcommands then .help else .invalidSubcommand
  | _ => .invalidSubcommand

/-- The settings behind a subcommand, with every required option among them. -/
def parseSubcommand (c : Subcommand) (args : List String) : Except UsageError Settings := do
  let (scan, _) ← Scan.run c.level args {}
  let scan ← scan.settle
  if c.valued.all fun o => !o.required || scan.settings.has o.long then .ok scan.settings
  else .error .missingRequired

def providerOf (name : Option String) : ProviderChoice :=
  if name = some "dalek" then .dalek else .sodium

def parse (args : List String) : Except UsageError Invocation := do
  let (root, rest) ← Scan.run rootLevel args {}
  match rest with
  | none =>
    let root ← root.settle
    .error (if root.settings.isEmpty then .nothingGiven else .missingSubcommand)
  | some (name, args) =>
    match subcommands.find? (·.name = name) with
    | none => .error (helpOn args)
    | some c =>
      let settings ← parseSubcommand c args
      let root := (← root.settle).settings
      let both := settings ++ root
      return {
        provider := providerOf (both.value? "provider")
        verbosity := both.count "verbose"
        command := c.build settings }

end CommandLine

end Strongbox
