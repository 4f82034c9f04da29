import Strongbox.Command.Files
import Strongbox.Guard.Keys

/-! The command that makes a key pair and writes its two files. -/

namespace Strongbox.Command

variable {σ : Type} {m : Type → Type} [Monad m] [Host σ m]

def keyPath (outDir : Path) (name : String) : Path := outDir.join (name ++ ".key")

def pubPath (outDir : Path) (name : String) : Path := outDir.join (name ++ ".pub")

/-- A directory that could not be made will do if it exists. -/
def settleDir (p : Path) (made : Except Fault Unit) : m (Except Fault Unit) := do
  match made with
  | .ok () => return .ok ()
  | .error e => return if (← Host.isDirectory p) then .ok () else .error e

/-- Makes a directory, after the missing ones among its ancestors. -/
def makeDirs (p : Path) (ancestors : List Path) : m (Except Fault Unit) := do
  match ← Host.makeDir p with
  | .error .notFound =>
    match ancestors with
    | [] => settleDir p (← Host.makeDir p)
    | above :: rest =>
      match ← makeDirs above rest with
      | .error e => return .error e
      | .ok () => settleDir p (← Host.makeDir p)
  | made => settleDir p made

/-- Makes a key pair and writes it to two files. -/
def makeKeys (P : Provider σ) (kind : KeyKind) (outDir : Path) (name : String)
    (seed : Option Path) (force : Bool) : ExceptT Trouble m Unit := do
  require (.makeDirs outDir) (makeDirs outDir outDir.ancestors)
  let key := keyPath outDir name
  let pub := pubPath outDir name
  if !force then
    if (← ExceptT.lift (Host.pathExists key)) then throw .keyFilesExist
    if (← ExceptT.lift (Host.pathExists pub)) then throw .keyFilesExist
  match kind with
  | .box =>
    if seed.isSome then throw .seedForBoxKeys
    let (pk, sk) ← attempt .boxKeys (Guard.boxKeys P)
    saveKey key sk.toList secretMode
    saveKey pub pk.toList publicMode
  | .sign =>
    let (pk, sk) ← match seed with
      | some path => do
        let seed ← loadKey Size.seed path
        attempt .signingKeys (Guard.signingKeysOfSeed P ⟨seed⟩)
      | none => attempt .signingKeys (Guard.signingKeys P)
    saveKey key sk.toList secretMode
    saveKey pub pk.toList publicMode
  guarded (Action.emit (.keyPairWritten P.name kind))
  printLine "generated:"
  printLine ("  secret: " ++ key.text)
  printLine ("  public: " ++ pub.text)

end Strongbox.Command
