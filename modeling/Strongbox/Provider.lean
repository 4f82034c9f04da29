import Strongbox.Failure
import Strongbox.Key

/-! The interface between the guarded operations and the primitives. A provider
is a record of functions over a state of its own; the lengths that the callers
promise are listed with each function. -/

namespace Strongbox

/-- A provider's step: it may change the provider's state, or end the run. -/
abbrev Step (σ : Type) := StateT σ (Except Violation)

/-- What a call yields: a value, or a rejection. -/
abbrev Answer (α : Type) := Except Rejection α

/-- The answer to a call that works in place, with the buffer it leaves. -/
structure Reply (n : Nat) (α : Type) where
  result : Answer α
  buffer : ByteVec n

/-- A step on a buffer of `n` bytes, whose length it keeps. -/
abbrev InPlace (σ : Type) (n : Nat) (α : Type) := ByteVec n → Step σ (Reply n α)

/-- An implementation of the primitives, with state `σ`. -/
structure Provider (σ : Type) where
  name : String
  /-- The least number of bytes a hash state needs. -/
  hashStateBytes : Nat
  boxKeys : Step σ (Answer (BoxPublicKey × BoxSecretKey))
  agree : BoxPublicKey → BoxSecretKey → Step σ (Answer SymmetricKey)
  /-- Turns `zeros 32 ++ message` into `zeros 16 ++ tag ++ body`. -/
  sealInPlace : {n : Nat} → Nonce → SymmetricKey → InPlace σ n Unit
  /-- Turns a buffer of at least 32 bytes into `zeros 32 ++ message`. -/
  unsealInPlace : {n : Nat} → Nonce → SymmetricKey → InPlace σ n Unit
  signingKeys : Step σ (Answer (SignPublicKey × SignSecretKey))
  signingKeysOfSeed : SignSeed → Step σ (Answer (SignPublicKey × SignSecretKey))
  /-- Writes a signature over the first 64 bytes; the message behind them stays. -/
  signInPlace : {n : Nat} → SignSecretKey → InPlace σ n Unit
  signDetached : Bytes → SignSecretKey → Step σ (Answer Signature)
  /-- Copies the message of a signed string of 64 to `n` bytes into the buffer
  and answers its length. -/
  openSigned : {n : Nat} → (signed : Bytes) → SignPublicKey → InPlace σ n Nat
  verifyDetached : Signature → Bytes → SignPublicKey → Step σ (Answer Unit)
  digest : Bytes → Step σ (Answer Digest)
  /-- The three calls on a hash state get at least `hashStateBytes` bytes. -/
  hashInit : {n : Nat} → InPlace σ n Unit
  hashUpdate : {n : Nat} → (chunk : Bytes) → InPlace σ n Unit
  hashFinal : {n : Nat} → InPlace σ n Digest

end Strongbox
