import Strongbox.Command.Files
import Strongbox.Command.Wire
import Strongbox.Guard.Keys

/-! The commands that seal and open a message between two parties. -/

namespace Strongbox

structure BoxArgs where
  secret : Path
  peer : Path
  nonce : String
  input : Path
  output : Path
deriving DecidableEq, Repr

namespace Command

variable {σ : Type} {m : Type → Type} [Monad m] [Host σ m]

/-- The key agreed between the secret key file and the peer's public key file. -/
def agreedKey (P : Provider σ) (args : BoxArgs) : ExceptT Trouble m SymmetricKey := do
  let secret ← loadKey Size.boxSecretKey args.secret
  let peer ← loadKey Size.boxPublicKey args.peer
  attempt .agreement (Guard.agree P ⟨peer⟩ ⟨secret⟩)

/-- Seals or opens the input, as `convert` says. -/
def convertBox (P : Provider σ) (args : BoxArgs)
    (convert : SymmetricKey → Nonce → Bytes → Action σ (Except Trouble Bytes)) :
    ExceptT Trouble m Unit := do
  let nonce ← KeyText.decode Size.nonce args.nonce "nonce"
  let key ← agreedKey P args
  let data ← readInput args.input
  let converted ← attempt id (convert key ⟨nonce⟩ data)
  writeOutput args.output converted

end Command

end Strongbox
