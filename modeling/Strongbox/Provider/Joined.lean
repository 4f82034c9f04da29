import Strongbox.Provider.Primitives
import Strongbox.Sha512.Layout

/-! A provider whose box functions work on the padded buffer as a whole: the
keystream covers the padding too, and the masked padding becomes the key of the
tag. Its hash state counts bits. -/

namespace Strongbox.Joined

variable (p : Primitives)

def reject {n : Nat} {α : Type} (buf : ByteVec n) : Step Entropy (Reply n α) :=
  return ⟨.error {}, buf⟩

def boxKeys : Step Entropy (Answer (BoxPublicKey × BoxSecretKey)) := do
  let secret : BoxSecretKey := ⟨← Entropy.draw Size.boxSecretKey⟩
  return .ok (p.boxPublicKey secret, secret)

def agree (peer : BoxPublicKey) (secret : BoxSecretKey) : Step Entropy (Answer SymmetricKey) :=
  return match p.agreedKey? peer secret with
    | some key => .ok key
    | none => .error {}

/-- The buffer under the keystream, padding included. -/
def masked (nonce : Nonce) (key : SymmetricKey) (buf : Bytes) : Bytes :=
  Bytes.xor buf (p.keystream key nonce buf.length)

@[simp] theorem length_masked (nonce : Nonce) (key : SymmetricKey) (buf : Bytes) :
    (masked p nonce key buf).length = buf.length := by simp [masked]

/-- The tag of a body, whose key is the front of `front`. -/
def tagUnder (front body : Bytes) : ByteVec Size.tag :=
  p.authenticate (.ofFront 32 front) body

def sealInPlace {n : Nat} (nonce : Nonce) (key : SymmetricKey) : InPlace Entropy n Unit :=
  fun buf =>
    if h : n < Size.padding then reject buf
    else
      let whole := masked p nonce key buf.toList
      let body := whole.drop Size.padding
      return ⟨.ok (), ⟨Bytes.zeros Size.sealedPadding ++ (tagUnder p whole body).toList ++ body,
        by simp [body, whole]; simp at h; omega⟩⟩

def unsealInPlace {n : Nat} (nonce : Nonce) (key : SymmetricKey) : InPlace Entropy n Unit :=
  fun buf =>
    if h : n < Size.padding then reject buf
    else
      let body := buf.toList.drop Size.padding
      let tag := (buf.toList.drop Size.sealedPadding).take Size.tag
      if (tagUnder p (p.keystream key nonce 32) body).toList ≠ tag then reject buf
      else
        let whole := masked p nonce key buf.toList
        return ⟨.ok (), ⟨Bytes.zeros Size.padding ++ whole.drop Size.padding,
          by simp [whole]; simp at h; omega⟩⟩

def signingKeysOfSeed (seed : SignSeed) :
    Step Entropy (Answer (SignPublicKey × SignSecretKey)) :=
  let pk := p.publicKey seed
  return .ok (pk, .ofHalves seed pk)

def signingKeys : Step Entropy (Answer (SignPublicKey × SignSecretKey)) := do
  signingKeysOfSeed p ⟨← Entropy.draw Size.seed⟩

/-- The key is checked before the buffer. -/
def signInPlace {n : Nat} (secret : SignSecretKey) : InPlace Entropy n Unit :=
  fun buf =>
    if !p.isWellFormed secret then reject buf
    else if h : n < Size.signature then reject buf
    else
      let message := buf.toList.drop Size.signature
      return ⟨.ok (), ⟨(p.signature secret.seed message).toList ++ message,
        by simp [message]; simp at h; omega⟩⟩

def signDetached (message : Bytes) (secret : SignSecretKey) : Step Entropy (Answer Signature) :=
  return if p.isWellFormed secret then .ok (p.signature secret.seed message) else .error {}

def verifyDetached (signature : Signature) (message : Bytes) (pk : SignPublicKey) :
    Step Entropy (Answer Unit) :=
  return if p.accepts pk message signature then .ok () else .error {}

/-- A refused message is wiped from the front of the buffer. -/
def openSigned {n : Nat} (signed : Bytes) (pk : SignPublicKey) : InPlace Entropy n Nat :=
  fun buf =>
    if signed.length < Size.signature ∨ n < signed.length then reject buf
    else
      let message := signed.drop Size.signature
      if p.accepts pk message ⟨.ofFront Size.signature signed⟩ then
        return ⟨.ok message.length, buf.overwrite 0 message⟩
      else
        return ⟨.error {}, buf.overwrite 0 (Bytes.zeros message.length)⟩

def digest (message : Bytes) : Step Entropy (Answer Digest) :=
  return .ok (Sha512.digest p.compress message)

/-- The front of a buffer, as a hash state. -/
def stateOf {n : Nat} (buf : ByteVec n) (h : ¬ n < Size.hashState) : ByteVec Size.hashState :=
  buf.first Size.hashState (by omega)

def hashInit {n : Nat} : InPlace Entropy n Unit := fun buf =>
  if n < Size.hashState then reject buf
  else return ⟨.ok (), buf.overwrite 0 Sha512.Midstate.initial.toBitCountedBytes.toList⟩

def hashUpdate {n : Nat} (chunk : Bytes) : InPlace Entropy n Unit := fun buf =>
  if h : n < Size.hashState then reject buf
  else
    let state := (Sha512.Midstate.ofBitCountedBytes (stateOf buf h)).update p.compress chunk
    return ⟨.ok (), buf.overwrite 0 state.toBitCountedBytes.toList⟩

/-- The finished state is wiped. -/
def hashFinal {n : Nat} : InPlace Entropy n Digest := fun buf =>
  if h : n < Size.hashState then reject buf
  else
    let state := (Sha512.Midstate.ofBitCountedBytes (stateOf buf h)).finish p.compress
    return ⟨.ok state.digest, buf.overwrite 0 (Bytes.zeros Size.hashState)⟩

def provider : Provider Entropy where
  name := "libsodium"
  hashStateBytes := Size.hashState
  boxKeys := boxKeys p
  agree := agree p
  sealInPlace := sealInPlace p
  unsealInPlace := unsealInPlace p
  signingKeys := signingKeys p
  signingKeysOfSeed := signingKeysOfSeed p
  signInPlace := signInPlace p
  signDetached := signDetached p
  openSigned := openSigned p
  verifyDetached := verifyDetached p
  digest := digest p
  hashInit := hashInit
  hashUpdate := hashUpdate p
  hashFinal := hashFinal p

end Strongbox.Joined
