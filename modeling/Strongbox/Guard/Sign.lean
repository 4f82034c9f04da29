import Strongbox.Session

/-! Guarded signing and verification. Combined signatures stand in front of
their message; a rejected output region is wiped. -/

namespace Strongbox.Guard

open Strongbox.Action

variable {σ : Type}

/-- Signs the message behind 64 reserved bytes, which must exist. -/
def signReserved (P : Provider σ) (buf : Bytes) (secret : SignSecretKey) :
    Action σ (Written Nat) := do
  let (_, message) ← cut Size.signature buf
  emit (.signing P.name message.length)
  let reply ← call (P.signInPlace secret (.ofList buf))
  match reply.result with
  | .ok () => return ⟨.ok buf.length, reply.buffer.toList⟩
  | .error _ =>
    let (_, kept) ← cut Size.signature reply.buffer.toList
    emit (.signingFailed P.name)
    return ⟨.error .failure, Bytes.zeros Size.signature ++ kept⟩

/-- Writes `signature ++ message` into the front of `out` and answers its length. -/
def sign (P : Provider σ) (out message : Bytes) (secret : SignSecretKey) :
    Action σ (Written Nat) := do
  let length := message.length + Size.signature
  if out.length < length then
    emit (.outputTooSmall length out.length)
    return .refuse (.capacity length out.length) out
  else
    let (region, rest) ← cut length out
    let (reserved, _) ← cut Size.signature region
    let written ← signReserved P (reserved ++ message) secret
    return written.followedBy rest

/-- Signs the message that stands behind 64 reserved bytes of `buf`. -/
def signInPlace (P : Provider σ) (buf : Bytes) (secret : SignSecretKey) :
    Action σ (Written Nat) := do
  if buf.length < Size.signature then
    emit (.outputTooSmall Size.signature buf.length)
    return .refuse (.capacity Size.signature buf.length) buf
  else
    signReserved P buf secret

/-- The signature of a message, kept apart from it. -/
def signDetached (P : Provider σ) (message : Bytes) (secret : SignSecretKey) :
    Action σ (Except CryptoError Signature) := do
  match ← call (P.signDetached message secret) with
  | .ok signature => return .ok signature
  | .error _ => return .error .failure

/-- Verifies `signature ++ message`, copies the message into the front of `out`
and answers its length. A length other than the message's is a rejection. -/
def openSigned (P : Provider σ) (out signed : Bytes) (pk : SignPublicKey) :
    Action σ (Written Nat) := do
  if out.length < signed.length then
    emit (.outputTooSmall signed.length out.length)
    return .refuse (.capacity signed.length out.length) out
  else
    let (region, rest) ← cut signed.length out
    if signed.length < Size.signature then
      emit (.signedTooShort P.name signed.length)
      return .refuse .failure out
    else
      let reply ← call (P.openSigned signed pk (.ofList region))
      if reply.result.toOption = some (signed.length - Size.signature) then
        return ⟨.ok (signed.length - Size.signature), reply.buffer.toList ++ rest⟩
      else
        emit (.openingFailed P.name)
        return ⟨.error .failure, Bytes.zeros region.length ++ rest⟩

/-- Verifies a signature kept apart from its message. -/
def verifyDetached (P : Provider σ) (signature : Signature) (message : Bytes)
    (pk : SignPublicKey) : Action σ (Except CryptoError Unit) := do
  match ← call (P.verifyDetached signature message pk) with
  | .ok () => return .ok ()
  | .error _ =>
    emit (.verificationFailed P.name)
    return .error .failure

end Strongbox.Guard
