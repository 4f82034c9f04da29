import Strongbox.Command.KeyText

/-! Reading and writing of keys, inputs and outputs by commands. -/

namespace Strongbox.Command

variable {σ : Type} {m : Type → Type} [Monad m] [Host σ m]

/-- A host's answer, with a fault turned into trouble. -/
def require {α : Type} (trouble : Fault → Trouble) (request : m (Except Fault α)) :
    ExceptT Trouble m α := do
  match ← request with
  | .ok a => return a
  | .error fault => throw (trouble fault)

def guarded {α : Type} (act : Action σ α) : ExceptT Trouble m α :=
  ExceptT.lift (Host.perform act)

/-- Runs a guarded operation that may fail. -/
def attempt {α ε : Type} (trouble : ε → Trouble) (act : Action σ (Except ε α)) :
    ExceptT Trouble m α := do
  match ← guarded act with
  | .ok a => return a
  | .error e => throw (trouble e)

def loadKey (n : Nat) (path : Path) : ExceptT Trouble m (ByteVec n) := do
  let bytes ← require (.read path) (Host.readAll (.file path))
  match Text.decode? bytes with
  | none => throw (.read path .notText)
  | some text => KeyText.decode n text path.text

/-- The permission bits of secret and public key files. -/
def secretMode : Nat := 0o600

def publicMode : Nat := 0o644

/-- Writes a key file and sets its permissions. -/
def saveKey (path : Path) (bytes : Bytes) (mode : Nat) : ExceptT Trouble m Unit := do
  require (.write path) (Host.writeFile path (KeyText.encode bytes))
  require (.setMode path) (Host.setMode path mode)

def readInput (path : Path) : ExceptT Trouble m Bytes :=
  match path.source with
  | .standard => require .readStandard (Host.readAll .standard)
  | .file p => require (.read p) (Host.readAll (.file p))

def writeOutput (path : Path) (bytes : Bytes) : ExceptT Trouble m Unit :=
  match path.source with
  | .standard => require .writeStandard (Host.print bytes)
  | .file p => require (.write p) (Host.writeFile p bytes)

def printLine (text : String) : ExceptT Trouble m Unit :=
  require .writeStandard (Host.print (Text.encode (text ++ "\n")))

end Strongbox.Command
