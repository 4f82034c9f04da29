import Strongbox.Log.Format
import Strongbox.Program

/-! The command line on a real machine. Commands are run over the file system and
the standard streams; what they decide is decided in the modules below this one. -/

namespace Strongbox.Machine

/-- What a run carries along: the provider's state, and how to log. -/
structure Setup where
  provider : IO.Ref Entropy
  filter : Log.Filter
  format : Log.Format

/-- Commands on the real machine. -/
abbrev Shell := ReaderT Setup IO

/-- The number the system gives a failure, with its text. -/
def systemCode : IO.Error → Option (UInt32 × String)
  | .alreadyExists _ code text | .otherError code text | .resourceBusy code text
  | .resourceVanished code text | .unsupportedOperation code text | .hardwareFault code text
  | .unsatisfiedConstraints code text | .illegalOperation code text | .protocolError code text
  | .timeExpired code text | .interrupted _ code text | .noFileOrDirectory _ code text
  | .invalidArgument _ code text | .permissionDenied _ code text
  | .resourceExhausted _ code text | .inappropriateType _ code text
  | .noSuchThing _ code text => some (code, text)
  | .unexpectedEof | .userError _ => none

def faultOf (e : IO.Error) : Fault :=
  match systemCode e with
  | some (2, _) => .notFound
  | some (17, _) => .alreadyExists
  | some (20, _) => .notDirectory
  | some (21, _) => .isDirectory
  | some (36, _) => .nameTooLong
  | some (40, _) => .tooManyLinks
  | some (code, text) => .other s!"{text} (os error {code})"
  | none => .other (toString e)

/-- Runs a request and turns its exception into a fault. -/
def request {α : Type} (act : IO α) : Shell (Except Fault α) := do
  match ← act.toBaseIO with
  | .ok a => return .ok a
  | .error e => return .error (faultOf e)

def bytesOf (b : ByteArray) : Bytes := b.data.toList

/-- The largest single read. A smaller one than asked for is a read like any other. -/
def readLimit : Nat := Nat.pow 2 20

/-- Reads to the end, one piece at a time. -/
partial def readLoop (read : USize → IO ByteArray) (askFor : (position : Nat) → Nat)
    (position : Nat) (pieces : List Bytes) : IO Delivery := do
  match ← (read (USize.ofNat (min (askFor position) readLimit))).toBaseIO with
  | .error e => return { pieces := pieces.reverse, fault := some (faultOf e) }
  | .ok piece =>
    if piece.isEmpty then return { pieces := pieces.reverse }
    else readLoop read askFor (position + piece.size) (bytesOf piece :: pieces)

def readPieces (source : Source) (size : Nat) : IO Delivery := do
  match source with
  | .standard => readLoop (← IO.getStdin).read (source.readSize size) 0 []
  | .file path =>
    match ← (IO.FS.Handle.mk path.text .read).toBaseIO with
    | .ok handle => readLoop handle.read (source.readSize size) 0 []
    | .error e => return { pieces := [], fault := some (faultOf e) }

def readAll (source : Source) : Shell (Except Fault Bytes) := do
  let delivery ← readPieces source readLimit
  match delivery.fault with
  | some fault => return .error fault
  | none => return .ok delivery.pieces.flatten

/-- The access rights that three octal digits stand for. -/
def rightsOf (mode : Nat) : IO.FileRight :=
  let right (digit : Nat) : IO.AccessRight :=
    { read := digit.testBit 2, write := digit.testBit 1, execution := digit.testBit 0 }
  { user := right (mode / 64 % 8), group := right (mode / 8 % 8), other := right (mode % 8) }

/-- A file exists if it can be opened, or if only permission is lacking. -/
def exists? (name : String) : IO Bool := do
  match ← (IO.FS.Handle.mk name .read).toBaseIO with
  | .ok _ => return true
  | .error (.permissionDenied ..) => return true
  | .error _ => return false

def perform {α : Type} (act : Action Entropy α) : Shell α := do
  let setup ← read
  match act.run { provider := ← setup.provider.get } with
  | .error violation => throw (IO.userError s!"broken precondition: {reprStr violation}")
  | .ok (a, session) =>
    setup.provider.set session.provider
    for line in Log.lines setup.format setup.filter (session.events.map .event) do
      IO.eprintln line
    return a

instance : Host Entropy Shell where
  perform := perform
  makeDir path := request (IO.FS.createDir path.text)
  isDirectory path := exists? (path.text ++ "/.")
  pathExists path := exists? path.text
  openSource source :=
    match source with
    | .standard => return .ok ()
    | .file path => do return (← request (IO.FS.Handle.mk path.text .read)).map fun _ => ()
  readAll := readAll
  readPieces source size := readPieces source size
  writeFile path contents := request (IO.FS.writeBinFile path.text ⟨contents.toArray⟩)
  setMode path mode := request (IO.setAccessRights path.text (rightsOf mode))
  print bytes := request do
    let out ← IO.getStdout
    out.write ⟨bytes.toArray⟩
    out.flush
  note text := IO.eprintln text

/-- More random bytes than one command can draw. -/
def randomSupply : USize := 256

def entropy : IO Entropy := do
  let supply := bytesOf (← IO.getRandomBytes randomSupply)
  let table := supply.toArray
  return { byteAt := fun i => table.getD i 0 }

/-- Tells the user what is wrong with the arguments, or helps. -/
def explain (e : CommandLine.UsageError) : IO Unit :=
  match e with
  | .help => IO.println CommandLine.usage
  | .version => IO.println CommandLine.versionLine
  | e => do
    IO.eprintln ("error: " ++ e.message)
    IO.eprintln ""
    IO.eprintln CommandLine.usage

end Strongbox.Machine

open Strongbox Strongbox.Machine in
def main (args : List String) : IO UInt32 := do
  match CommandLine.parse args with
  | .error e =>
    explain e
    return UInt32.ofNat e.exitCode
  | .ok invocation =>
    let setup : Setup := {
      provider := ← IO.mkRef (← entropy)
      filter := Log.chooseFilter (← IO.getEnv "RUST_LOG") invocation.verbosity
      format := .ofSetting (← IO.getEnv "RUST_LOG_FORMAT") }
    let code ← ReaderT.run (invocation.run (m := Shell)) setup
    return UInt32.ofNat code
