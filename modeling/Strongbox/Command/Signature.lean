import Strongbox.Command.Files
import Strongbox.Command.Wire

/-! The commands that sign a message and verify a signature. -/

namespace Strongbox.Command

variable {σ : Type} {m : Type → Type} [Monad m] [Host σ m]

/-- Signs the input; a detached signature is written as hexadecimal text. -/
def signInput (P : Provider σ) (secret input output : Path) (detached : Bool) :
    ExceptT Trouble m Unit := do
  let sk : SignSecretKey := ⟨← loadKey Size.signSecretKey secret⟩
  let message ← readInput input
  if detached then
    let signature ← attempt .signing (Guard.signDetached P message sk)
    writeOutput output (KeyText.encode signature.toList)
  else
    let signed ← attempt id (Wire.signMessage P sk message)
    writeOutput output signed

/-- Verifies the input, against a signature file if one is given. Only a combined
input yields a message to write. -/
def verifyInput (P : Provider σ) (pk input : Path) (signature output : Option Path) :
    ExceptT Trouble m Unit := do
  let key : SignPublicKey := ⟨← loadKey Size.signPublicKey pk⟩
  let data ← readInput input
  match signature with
  | some path =>
    let signature ← loadKey Size.signature path
    attempt (fun _ => .verification) (Guard.verifyDetached P ⟨signature⟩ data key)
  | none =>
    let message ← attempt id (Wire.openMessage P key data)
    match output with
    | some path => writeOutput path message
    | none => pure ()
  ExceptT.lift (Host.note "signature OK")

end Strongbox.Command
