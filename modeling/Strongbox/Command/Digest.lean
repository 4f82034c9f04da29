import Strongbox.Command.Files
import Strongbox.Guard.Hash

/-! The command that prints a digest, of an input read whole or in pieces. -/

namespace Strongbox.Command

variable {σ : Type} {m : Type → Type} [Monad m] [Host σ m]

/-- The largest buffer that can be asked for. -/
def maxBuffer : Nat := Nat.pow 2 63 - 1

def feed {P : Provider σ} (stream : Guard.HashStream P) :
    List Bytes → ExceptT Trouble m (Guard.HashStream P)
  | [] => return stream
  | piece :: pieces => do
    let (result, stream) ← guarded (stream.update piece)
    match result with
    | .ok () => feed stream pieces
    | .error e => throw (.hashing e)

/-- Hashes a source in pieces of at most `size` bytes. -/
def hashPieces (P : Provider σ) (source : Source) (size : Nat) : ExceptT Trouble m Digest := do
  match source with
  | .standard => pure ()
  | .file path => require (.openFile path) (Host.openSource source)
  let started ← guarded (Guard.HashStream.start P Guard.StateBuffer.fresh.toList)
  match started.result with
  | .error e => throw (.hashing e)
  | .ok stream =>
    if maxBuffer < size then guarded (fun _ => throw .outOfRange : Action σ Unit)
    let delivery ← ExceptT.lift (Host.readPieces source size)
    let stream ← feed stream delivery.pieces
    match delivery.fault with
    | some fault => throw (.readInput fault)
    | none =>
      let finished ← guarded stream.finish
      match finished.result with
      | .ok digest => return digest
      | .error e => throw (.hashing e)

/-- Prints the digest of the input, read whole or in pieces. -/
def hashInput (P : Provider σ) (input : Path) (chunkSize : Option Nat) :
    ExceptT Trouble m Unit := do
  let digest ← match chunkSize with
    | none => do attempt .hashing (Guard.digest P (← readInput input))
    | some 0 => throw .emptyChunks
    | some size => hashPieces P input.source size
  printLine (Hex.encode digest.toList)

end Strongbox.Command
