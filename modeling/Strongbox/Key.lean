import Strongbox.Bytes
import Strongbox.Size

/-! Keys, nonces, signatures and digests as distinct types of fixed length.
Public values show their bytes; secret values never do, and can be wiped. -/

namespace Strongbox

structure BoxPublicKey extends ByteVec Size.boxPublicKey
deriving DecidableEq

structure SignPublicKey extends ByteVec Size.signPublicKey
deriving DecidableEq

structure Nonce extends ByteVec Size.nonce
deriving DecidableEq

structure Signature extends ByteVec Size.signature
deriving DecidableEq

structure Digest extends ByteVec Size.digest
deriving DecidableEq

structure BoxSecretKey extends ByteVec Size.boxSecretKey
deriving DecidableEq

/-- The agreed key of two parties, used for many messages under distinct nonces. -/
structure SymmetricKey extends ByteVec Size.symmetricKey
deriving DecidableEq

structure SignSeed extends ByteVec Size.seed
deriving DecidableEq

/-- A signing key: the seed, followed by the public key. -/
structure SignSecretKey extends ByteVec Size.signSecretKey
deriving DecidableEq

namespace SignSecretKey

def seed (sk : SignSecretKey) : SignSeed := ⟨sk.first Size.seed⟩

/-- The public half, as stored. -/
def publicKey (sk : SignSecretKey) : SignPublicKey := ⟨sk.rest Size.seed⟩

/-- The key made of a seed and a public half. -/
def ofHalves (seed : SignSeed) (pk : SignPublicKey) : SignSecretKey :=
  ⟨seed.append pk.toByteVec⟩

@[simp] theorem seed_ofHalves (seed : SignSeed) (pk : SignPublicKey) :
    (ofHalves seed pk).seed = seed := by
  cases seed with | mk s => cases s with | mk l h => simp [ofHalves, SignSecretKey.seed,
    ByteVec.append, ByteVec.first, List.take_left' h]

@[simp] theorem publicKey_ofHalves (seed : SignSeed) (pk : SignPublicKey) :
    (ofHalves seed pk).publicKey = pk := by
  cases seed with | mk s => cases s with | mk l h => simp [ofHalves, publicKey,
    ByteVec.append, ByteVec.rest, List.drop_left' h]

theorem ofHalves_seed_publicKey (sk : SignSecretKey) : ofHalves sk.seed sk.publicKey = sk := by
  simp [ofHalves, seed, publicKey, ByteVec.append, ByteVec.first, ByteVec.rest]

end SignSecretKey

/-- A public value with the name it is shown under. -/
class Shown (α : Type) where
  label : String
  bytes : α → Bytes

/-- The shown form: the label, then the bytes in decimal. -/
def Shown.describe {α : Type} [Shown α] (a : α) : String :=
  label α ++ "([" ++ ", ".intercalate ((bytes a).map fun b => toString b.toNat) ++ "])"

instance : Shown BoxPublicKey := ⟨"BoxPublicKey", fun k => k.toList⟩
instance : Shown SignPublicKey := ⟨"SignPublicKey", fun k => k.toList⟩
instance : Shown Nonce := ⟨"Nonce", fun k => k.toList⟩
instance : Shown Signature := ⟨"Signature", fun k => k.toList⟩
instance : Shown Digest := ⟨"Digest", fun k => k.toList⟩

/-- A secret value: a label, a length, and its bytes, which are never shown. -/
class Secret (α : Type) where
  label : String
  length : Nat
  ofBytes : ByteVec length → α
  bytes : α → ByteVec length

namespace Secret

variable {α : Type} [Secret α]

/-- The shown form, the same for every value of the type. -/
def describe (_ : α) : String := label α ++ "(<redacted>)"

/-- The value whose bytes are all zero. -/
def zeroed : α := ofBytes (ByteVec.zeros (length α))

/-- Wiping leaves nothing of the old bytes. -/
def wipe (_ : α) : α := zeroed

end Secret

instance : Secret BoxSecretKey := ⟨"BoxSecretKey", _, BoxSecretKey.mk, BoxSecretKey.toByteVec⟩
instance : Secret SymmetricKey := ⟨"SymmetricKey", _, SymmetricKey.mk, SymmetricKey.toByteVec⟩
instance : Secret SignSeed := ⟨"SignSeed", _, SignSeed.mk, SignSeed.toByteVec⟩
instance : Secret SignSecretKey := ⟨"SignSecretKey", _, SignSecretKey.mk, SignSecretKey.toByteVec⟩

end Strongbox
