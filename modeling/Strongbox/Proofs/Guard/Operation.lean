import Strongbox.Proofs.Guard.Streams

/-! # The operations as data

Every guarded operation that draws no random bytes, with its arguments, and what running
it yields. A hash stream counts as one operation from its start to its end. -/

namespace Strongbox.Guard

inductive Operation where
  | signingKeysOfSeed (seed : SignSeed)
  | agree (peer : BoxPublicKey) (secret : BoxSecretKey)
  | sealBox (out padded : Bytes) (nonce : Nonce) (key : SymmetricKey)
  | sealBoxInPlace (buf : Bytes) (nonce : Nonce) (key : SymmetricKey)
  | unsealBox (out boxed : Bytes) (nonce : Nonce) (key : SymmetricKey)
  | unsealBoxInPlace (buf : Bytes) (nonce : Nonce) (key : SymmetricKey)
  | sign (out message : Bytes) (secret : SignSecretKey)
  | signInPlace (buf : Bytes) (secret : SignSecretKey)
  | signDetached (message : Bytes) (secret : SignSecretKey)
  | openSigned (out signed : Bytes) (pk : SignPublicKey)
  | verifyDetached (signature : Signature) (message : Bytes) (pk : SignPublicKey)
  | digest (message : Bytes)
  | hashStream (state : Bytes) (chunks : List Bytes)

namespace Operation

/-- What the caller gets back: the result, and the buffer where there is one. -/
def Value : Operation → Type
  | .signingKeysOfSeed _ => Except CryptoError (SignPublicKey × SignSecretKey)
  | .agree _ _ => Except CryptoError SymmetricKey
  | .sealBox _ _ _ _ => Written Unit
  | .sealBoxInPlace _ _ _ => Written Unit
  | .unsealBox _ _ _ _ => Written Unit
  | .unsealBoxInPlace _ _ _ => Written Unit
  | .sign _ _ _ => Written Nat
  | .signInPlace _ _ => Written Nat
  | .signDetached _ _ => Except CryptoError Signature
  | .openSigned _ _ _ => Written Nat
  | .verifyDetached _ _ _ => Except CryptoError Unit
  | .digest _ => Except CryptoError Digest
  | .hashStream _ _ => Written Streamed

variable {σ : Type}

def run (P : Provider σ) : (op : Operation) → Action σ op.Value
  | .signingKeysOfSeed seed => Guard.signingKeysOfSeed P seed
  | .agree peer secret => Guard.agree P peer secret
  | .sealBox out padded nonce key => Guard.sealBox P out padded nonce key
  | .sealBoxInPlace buf nonce key => Guard.sealBoxInPlace P buf nonce key
  | .unsealBox out boxed nonce key => Guard.unsealBox P out boxed nonce key
  | .unsealBoxInPlace buf nonce key => Guard.unsealBoxInPlace P buf nonce key
  | .sign out message secret => Guard.sign P out message secret
  | .signInPlace buf secret => Guard.signInPlace P buf secret
  | .signDetached message secret => Guard.signDetached P message secret
  | .openSigned out signed pk => Guard.openSigned P out signed pk
  | .verifyDetached signature message pk => Guard.verifyDetached P signature message pk
  | .digest message => Guard.digest P message
  | .hashStream state chunks => Guard.hashStream P state chunks

/-- Whether a stream with room for its state stays below `limit` bytes. Operations other
than streams count nothing. -/
def StaysBelow (limit : Nat) : Operation → Prop
  | .hashStream state chunks => Size.hashState ≤ state.length → chunks.flatten.length < limit
  | _ => True

end Operation

end Strongbox.Guard
