import Strongbox.Command.Trouble
import Strongbox.Guard.Box
import Strongbox.Guard.Sign

/-! The forms that leave the program. A sealed message is `tag ++ body`, without
the zero bytes in front; a signed message is `signature ++ message`. -/

namespace Strongbox.Wire

variable {σ : Type}

/-- Seals a message into `tag ++ body`. -/
def sealMessage (P : Provider σ) (key : SymmetricKey) (nonce : Nonce) (message : Bytes) :
    Action σ (Except Trouble Bytes) := do
  let written ← Guard.sealBoxInPlace P (Bytes.zeros Size.padding ++ message) nonce key
  match written.result with
  | .error e => return .error (.sealing e)
  | .ok () => return .ok (written.buffer.drop Size.sealedPadding)

/-- Opens `tag ++ body`. -/
def unsealMessage (P : Provider σ) (key : SymmetricKey) (nonce : Nonce) (boxed : Bytes) :
    Action σ (Except Trouble Bytes) := do
  if boxed.length < Size.tag then return .error (.boxTooShort boxed.length)
  let written ← Guard.unsealBoxInPlace P (Bytes.zeros Size.sealedPadding ++ boxed) nonce key
  match written.result with
  | .error e => return .error (.unsealing e)
  | .ok () => return .ok (written.buffer.drop Size.padding)

/-- Signs a message into `signature ++ message`. -/
def signMessage (P : Provider σ) (secret : SignSecretKey) (message : Bytes) :
    Action σ (Except Trouble Bytes) := do
  let written ← Guard.signInPlace P (Bytes.zeros Size.signature ++ message) secret
  match written.result with
  | .error e => return .error (.signing e)
  | .ok n => return .ok (written.buffer.take n)

/-- Verifies `signature ++ message` and yields the message. -/
def openMessage (P : Provider σ) (pk : SignPublicKey) (signed : Bytes) :
    Action σ (Except Trouble Bytes) := do
  let written ← Guard.openSigned P (Bytes.zeros signed.length) signed pk
  match written.result with
  | .error _ => return .error .verification
  | .ok n => return .ok (written.buffer.take n)

end Strongbox.Wire
