import Strongbox.Session

/-! Guarded key generation and key agreement. A rejection yields no key at all,
so a partly written one can never be picked up. -/

namespace Strongbox.Guard

open Strongbox.Action

variable {σ : Type}

def boxKeys (P : Provider σ) : Action σ (Except CryptoError (BoxPublicKey × BoxSecretKey)) := do
  match ← call P.boxKeys with
  | .error _ => return .error .failure
  | .ok keys =>
    emit (.boxKeysMade P.name)
    return .ok keys

def signingKeys (P : Provider σ) :
    Action σ (Except CryptoError (SignPublicKey × SignSecretKey)) := do
  match ← call P.signingKeys with
  | .error _ => return .error .failure
  | .ok keys =>
    emit (.signingKeysMade P.name)
    return .ok keys

def signingKeysOfSeed (P : Provider σ) (seed : SignSeed) :
    Action σ (Except CryptoError (SignPublicKey × SignSecretKey)) := do
  match ← call (P.signingKeysOfSeed seed) with
  | .error _ => return .error .failure
  | .ok keys => return .ok keys

/-- The symmetric key shared with a peer. -/
def agree (P : Provider σ) (peer : BoxPublicKey) (secret : BoxSecretKey) :
    Action σ (Except CryptoError SymmetricKey) := do
  match ← call (P.agree peer secret) with
  | .error _ =>
    emit (.agreementRejected P.name)
    return .error .failure
  | .ok key => return .ok key

end Strongbox.Guard
