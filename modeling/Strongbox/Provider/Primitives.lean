import Strongbox.Curve25519.Montgomery
import Strongbox.Ed25519
import Strongbox.Poly1305
import Strongbox.Provider
import Strongbox.Salsa20

/-! The primitives that a real provider is put together from, as one record, so
that what is proved of a provider holds for any primitives; and the source of
random bytes that real providers carry as their state. -/

namespace Strongbox

structure Primitives where
  /-- The coordinate that a secret scalar and a point's coordinate agree on. -/
  agree : (secret u : ByteVec 32) → ByteVec 32
  /-- The symmetric key made of an agreed coordinate. -/
  deriveKey : ByteVec 32 → SymmetricKey
  /-- The keystream, in blocks of 64 bytes. -/
  keystreamBlock : SymmetricKey → Nonce → Nat → ByteVec 64
  /-- The tag of a message under a key used once. -/
  authenticate : ByteVec 32 → Bytes → ByteVec Size.tag
  publicKey : SignSeed → SignPublicKey
  signature : SignSeed → (message : Bytes) → Signature
  accepts : SignPublicKey → (message : Bytes) → Signature → Bool
  compress : Sha512.Compress

namespace Primitives

def boxPublicKey (p : Primitives) (secret : BoxSecretKey) : BoxPublicKey :=
  ⟨p.agree secret.toByteVec Curve25519.baseU⟩

def keystream (p : Primitives) (key : SymmetricKey) (nonce : Nonce) (n : Nat) : Bytes :=
  ((List.range ((n + 63) / 64)).flatMap fun i => (p.keystreamBlock key nonce i).toList).take n

theorem length_flatMap_blocks (f : Nat → ByteVec 64) (k : Nat) :
    ((List.range k).flatMap fun i => (f i).toList).length = 64 * k := by
  induction k with
  | zero => rfl
  | succ k ih =>
    rw [List.range_succ, List.flatMap_append, List.length_append, ih]
    simp
    omega

@[simp] theorem length_keystream (p : Primitives) (key : SymmetricKey) (nonce : Nonce)
    (n : Nat) : (p.keystream key nonce n).length = n := by
  rw [keystream, List.length_take, length_flatMap_blocks]
  omega

/-- A key agreement whose result is zero throughout reveals a peer of small order
and yields no key. -/
def agreedKey? (p : Primitives) (peer : BoxPublicKey) (secret : BoxSecretKey) :
    Option SymmetricKey :=
  let shared := p.agree secret.toByteVec peer.toByteVec
  if shared = .zeros 32 then none else some (p.deriveKey shared)

/-- Whether a signing key's public half is the one its seed determines. -/
def isWellFormed (p : Primitives) (sk : SignSecretKey) : Bool :=
  p.publicKey sk.seed = sk.publicKey

/-- The primitives themselves, with the spelling of public keys that verification takes. -/
def standard (spelling : Ed25519.KeySpelling) : Primitives where
  agree := Curve25519.x25519
  deriveKey shared := ⟨Salsa20.hsalsa20 shared (.zeros 16)⟩
  keystreamBlock := Salsa20.xblock
  authenticate := Poly1305.tag
  publicKey := Ed25519.publicKey
  signature := Ed25519.sign
  accepts := Ed25519.accepts spelling
  compress := Sha512.compress

end Primitives

/-- A source of random bytes, of which the first `used` are spent. -/
structure Entropy where
  byteAt : Nat → UInt8
  used : Nat := 0

/-- Draws `n` fresh bytes. -/
def Entropy.draw (n : Nat) : Step Entropy (ByteVec n) := do
  let e ← get
  set { e with used := e.used + n }
  return ⟨(List.range n).map fun i => e.byteAt (e.used + i), by simp⟩

end Strongbox
