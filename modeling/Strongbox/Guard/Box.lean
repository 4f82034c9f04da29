import Strongbox.Session

/-! Guarded sealing and unsealing of boxes. Lengths the caller declares are
checked before the provider runs; a rejected buffer is wiped. -/

namespace Strongbox.Guard

open Strongbox.Action

variable {σ : Type}

/-- Seals a buffer of at least 32 bytes, whose padding is zeroed first. -/
def sealPadded (P : Provider σ) (buf : Bytes) (nonce : Nonce) (key : SymmetricKey) :
    Action σ (Written Unit) := do
  let (_, message) ← cut Size.padding buf
  let padded := Bytes.zeros Size.padding ++ message
  emit (.sealing P.name message.length)
  let reply ← call (P.sealInPlace nonce key (.ofList padded))
  match reply.result with
  | .ok () => return ⟨.ok (), reply.buffer.toList⟩
  | .error _ =>
    emit (.sealingFailed P.name)
    return ⟨.error .failure, Bytes.zeros padded.length⟩

/-- Unseals a buffer of at least 32 bytes. -/
def unsealPadded (P : Provider σ) (buf : Bytes) (nonce : Nonce) (key : SymmetricKey) :
    Action σ (Written Unit) := do
  let (_, body) ← cut Size.padding buf
  emit (.unsealing P.name body.length)
  let reply ← call (P.unsealInPlace nonce key (.ofList buf))
  match reply.result with
  | .ok () => return ⟨.ok (), reply.buffer.toList⟩
  | .error _ =>
    emit (.unsealingFailed P.name)
    return ⟨.error .failure, Bytes.zeros buf.length⟩

/-- Seals `padded`, whose first 32 bytes stand for the padding, into the front
of `out`. -/
def sealBox (P : Provider σ) (out padded : Bytes) (nonce : Nonce) (key : SymmetricKey) :
    Action σ (Written Unit) := do
  if padded.length < Size.padding then
    emit (.paddingMissing Size.padding padded.length)
    return .refuse (.capacity Size.padding padded.length) out
  else if out.length < padded.length then
    emit (.outputTooSmall padded.length out.length)
    return .refuse (.capacity padded.length out.length) out
  else
    let (region, rest) ← cut padded.length out
    let (reserved, _) ← cut Size.padding region
    let (_, message) ← cut Size.padding padded
    let written ← sealPadded P (reserved ++ message) nonce key
    return written.followedBy rest

/-- Seals the padded message in `buf`. -/
def sealBoxInPlace (P : Provider σ) (buf : Bytes) (nonce : Nonce) (key : SymmetricKey) :
    Action σ (Written Unit) := do
  if buf.length < Size.padding then
    emit (.paddingMissing Size.padding buf.length)
    return .refuse (.capacity Size.padding buf.length) buf
  else
    sealPadded P buf nonce key

/-- Unseals `boxed` into the front of `out`. An input too short for its padding
is a rejection like any other, not a capacity error. -/
def unsealBox (P : Provider σ) (out boxed : Bytes) (nonce : Nonce) (key : SymmetricKey) :
    Action σ (Written Unit) := do
  if boxed.length < Size.padding then
    emit (.sealedTooShort P.name boxed.length)
    return .refuse .failure out
  else if out.length < boxed.length then
    emit (.outputTooSmall boxed.length out.length)
    return .refuse (.capacity boxed.length out.length) out
  else
    let (_, rest) ← cut boxed.length out
    let written ← unsealPadded P boxed nonce key
    return written.followedBy rest

/-- Unseals the box in `buf`. -/
def unsealBoxInPlace (P : Provider σ) (buf : Bytes) (nonce : Nonce) (key : SymmetricKey) :
    Action σ (Written Unit) := do
  if buf.length < Size.padding then
    emit (.sealedTooShort P.name buf.length)
    return .refuse .failure buf
  else
    unsealPadded P buf nonce key

end Strongbox.Guard
