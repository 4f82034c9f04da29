import Strongbox.Provider.Primitives
import Strongbox.Sha512.Layout

/-! A provider whose box functions take the padding and the body of a buffer
apart: the body alone is masked, and the front of the keystream is the key of the
tag. Its hash state counts bytes, and nothing is written before the last check. -/

namespace Strongbox.Split

variable (p : Primitives)

def reject {n : Nat} {α : Type} (buf : ByteVec n) : Step Entropy (Reply n α) :=
  return ⟨.error {}, buf⟩

def boxKeys : Step Entropy (Answer (BoxPublicKey × BoxSecretKey)) := do
  let secret : BoxSecretKey := ⟨← Entropy.draw Size.boxSecretKey⟩
  return .ok (p.boxPublicKey secret, secret)

def agree (peer : BoxPublicKey) (secret : BoxSecretKey) : Step Entropy (Answer SymmetricKey) :=
  return match p.agreedKey? peer secret with
    | some key => .ok key
    | none => .error {}

/-- A body under the keystream behind its first 32 bytes. -/
def masked (nonce : Nonce) (key : SymmetricKey) (body : Bytes) : Bytes :=
  Bytes.xor body ((p.keystream key nonce (32 + body.length)).drop 32)

@[simp] theorem length_masked (nonce : Nonce) (key : SymmetricKey) (body : Bytes) :
    (masked p nonce key body).length = body.length := by simp [masked]

def tagOf (nonce : Nonce) (key : SymmetricKey) (body : Bytes) : ByteVec Size.tag :=
  p.authenticate (.ofFront 32 (p.keystream key nonce 32)) body

theorem padding_add_body {n : Nat} {buf : ByteVec n} (h : ¬ n < Size.padding) :
    Size.padding + (buf.toList.drop Size.padding).length = n := by
  rw [List.length_drop, buf.length_toList, Nat.add_sub_cancel' (Nat.le_of_not_lt h)]

def sealInPlace {n : Nat} (nonce : Nonce) (key : SymmetricKey) : InPlace Entropy n Unit :=
  fun buf =>
    if h : n < Size.padding then reject buf
    else
      let body := masked p nonce key (buf.toList.drop Size.padding)
      return ⟨.ok (), ⟨Bytes.zeros Size.sealedPadding ++ (tagOf p nonce key body).toList ++ body, by
        rw [List.length_append, List.length_append, Bytes.length_zeros, ByteVec.length_toList,
          length_masked]
        exact padding_add_body h⟩⟩

def unsealInPlace {n : Nat} (nonce : Nonce) (key : SymmetricKey) : InPlace Entropy n Unit :=
  fun buf =>
    if h : n < Size.padding then reject buf
    else
      let head := buf.toList.take Size.padding
      let body := buf.toList.drop Size.padding
      if (tagOf p nonce key body).toList = head.drop Size.sealedPadding then
        return ⟨.ok (), ⟨Bytes.zeros Size.padding ++ masked p nonce key body, by
          rw [List.length_append, Bytes.length_zeros, length_masked]
          exact padding_add_body h⟩⟩
      else reject buf

def signingKeysOfSeed (seed : SignSeed) :
    Step Entropy (Answer (SignPublicKey × SignSecretKey)) :=
  let sk := SignSecretKey.ofHalves seed (p.publicKey seed)
  return .ok (sk.publicKey, sk)

def signingKeys : Step Entropy (Answer (SignPublicKey × SignSecretKey)) := do
  signingKeysOfSeed p ⟨← Entropy.draw Size.seed⟩

/-- The seed of a signing key, unless the public half belongs to another seed. -/
def loadSeed? (secret : SignSecretKey) : Option SignSeed :=
  if p.isWellFormed secret then some secret.seed else none

/-- The buffer is checked before the key. -/
def signInPlace {n : Nat} (secret : SignSecretKey) : InPlace Entropy n Unit :=
  fun buf =>
    if n < Size.signature then reject buf
    else
      match loadSeed? p secret with
      | none => reject buf
      | some seed =>
        let signature := p.signature seed (buf.toList.drop Size.signature)
        return ⟨.ok (), buf.overwrite 0 signature.toList⟩

def signDetached (message : Bytes) (secret : SignSecretKey) : Step Entropy (Answer Signature) :=
  return match loadSeed? p secret with
    | some seed => .ok (p.signature seed message)
    | none => .error {}

def verifyDetached (signature : Signature) (message : Bytes) (pk : SignPublicKey) :
    Step Entropy (Answer Unit) :=
  return if p.accepts pk message signature then .ok () else .error {}

/-- A refused message leaves the buffer as it was. -/
def openSigned {n : Nat} (signed : Bytes) (pk : SignPublicKey) : InPlace Entropy n Nat :=
  fun buf => do
    if signed.length < Size.signature ∨ n < signed.length then reject buf
    else
      let signature : Signature := ⟨.ofFront Size.signature signed⟩
      let message := signed.drop Size.signature
      match ← verifyDetached p signature message pk with
      | .error _ => reject buf
      | .ok () => return ⟨.ok message.length, buf.overwrite 0 message⟩

def digest (message : Bytes) : Step Entropy (Answer Digest) :=
  return .ok (Sha512.digest p.compress message)

/-- The state in front of a buffer, if the buffer is long enough. -/
def load? {n : Nat} (buf : ByteVec n) : Option Sha512.Midstate :=
  if h : Size.hashState ≤ n then some (.ofBytes (buf.first Size.hashState h)) else none

/-- Puts a state over the front of a buffer. -/
def store {n : Nat} (buf : ByteVec n) (s : Sha512.Midstate) : ByteVec n :=
  buf.overwrite 0 s.toBytes.toList

def hashInit {n : Nat} : InPlace Entropy n Unit := fun buf =>
  if n < Size.hashState then reject buf
  else return ⟨.ok (), store buf .initial⟩

/-- A byte count that leaves its 128 bits ends the run. -/
def hashUpdate {n : Nat} (chunk : Bytes) : InPlace Entropy n Unit := fun buf =>
  match load? buf with
  | none => reject buf
  | some s =>
    if Nat.pow 2 128 ≤ s.count.toNat + chunk.length then throw .counterOverflow
    else return ⟨.ok (), store buf (s.update p.compress chunk)⟩

/-- The finished state stays in the buffer. -/
def hashFinal {n : Nat} : InPlace Entropy n Digest := fun buf =>
  match load? buf with
  | none => reject buf
  | some s =>
    let finished := s.finish p.compress
    return ⟨.ok finished.digest, store buf finished⟩

def provider : Provider Entropy where
  name := "dalek"
  hashStateBytes := Size.hashState
  boxKeys := boxKeys p
  agree := agree p
  sealInPlace := sealInPlace p
  unsealInPlace := unsealInPlace p
  signingKeys := signingKeys p
  signingKeysOfSeed := signingKeysOfSeed p
  signInPlace := signInPlace p
  signDetached := signDetached p
  openSigned := openSigned p
  verifyDetached := verifyDetached p
  digest := digest p
  hashInit := hashInit
  hashUpdate := hashUpdate p
  hashFinal := hashFinal p

end Strongbox.Split
