import Strongbox.Provider

/-! A deterministic stand-in provider for exercising the guarded operations. It
is no cryptography: it has the right formats, rejects tampered input, counts its
calls, and can be told to fail or to misreport a length. -/

namespace Strongbox.StandIn

structure State where
  calls : Nat := 0
  failing : Bool := false
  misreporting : Bool := false
deriving DecidableEq, Repr

/-- Counts a call, then either rejects or goes on. -/
def entering {α : Type} (rejected : α) (act : Step State α) : Step State α := do
  modify fun s => { s with calls := s.calls + 1 }
  if (← get).failing then return rejected else act

def asking {α : Type} (act : Step State (Answer α)) : Step State (Answer α) :=
  entering (.error {}) act

/-- A call on a buffer, which a rejection on entry leaves as it was. -/
def working {n : Nat} {α : Type} (act : InPlace State n α) : InPlace State n α := fun buf =>
  entering ⟨.error {}, buf⟩ (act buf)

/-! ### The weak primitives -/

/-- The public half of either kind of key. -/
def publicBytes (secret : ByteVec 32) : ByteVec 32 := secret.map (· ^^^ 0x5a)

def maskByte (key : SymmetricKey) (nonce : Nonce) (i : Nat) : UInt8 :=
  key.toList.getD (i % 32) 0 ^^^ nonce.toList.getD (i % 24) 0 ^^^ UInt8.ofNat i

def masked (key : SymmetricKey) (nonce : Nonce) (body : Bytes) : Bytes :=
  body.zipIdx.map fun b => b.1 ^^^ maskByte key nonce b.2

@[simp] theorem length_masked (key : SymmetricKey) (nonce : Nonce) (body : Bytes) :
    (masked key nonce body).length = body.length := by simp [masked]

/-- The byte turned left by three bits. -/
def turn (b : UInt8) : UInt8 := b <<< 3 ||| b >>> 5

/-- Sixteen slots take the key bytes in turn, then the body bytes in turn. -/
def weakTag (key body : Bytes) : Bytes :=
  let keyed := key.zipIdx.foldl
    (fun tag k => tag.modify (k.2 % 16) fun slot => slot ^^^ k.1 * 3) (Bytes.zeros 16)
  body.zipIdx.foldl
    (fun tag b => tag.modify (b.2 % 16) fun slot => turn slot ^^^ (b.1 + UInt8.ofNat b.2)) keyed

@[simp] theorem length_weakTag (key body : Bytes) : (weakTag key body).length = 16 := by
  have hfold : ∀ (f : Bytes → UInt8 × Nat → Bytes) (_ : ∀ t x, (f t x).length = t.length)
      (xs : List (UInt8 × Nat)) (t : Bytes), (xs.foldl f t).length = t.length := by
    intro f hf xs
    induction xs with
    | nil => intro t; rfl
    | cons x xs ih => intro t; rw [List.foldl_cons, ih, hf]
  simp only [weakTag]
  rw [hfold _ (by intro t x; simp), hfold _ (by intro t x; simp)]
  simp

/-- The tags of the message under the public key, of the public key under the
message, and of the message's length; the last sixteen bytes are zero. -/
def weakSignature (pk : SignPublicKey) (message : Bytes) : Signature :=
  ⟨⟨weakTag pk.toList message ++ weakTag message pk.toList
    ++ weakTag pk.toList (Bytes.ofNatLE 8 message.length) ++ Bytes.zeros 16, by simp⟩⟩

/-! ### The weak hash -/

def foldStart : UInt64 := 0xcbf29ce484222325

def foldByte (h : UInt64) (b : UInt8) : UInt64 := (h ^^^ b.toUInt64) * 0x100000001b3

/-- The digest repeats the word four times, then the length four times, each byte
masked by its position. -/
def spread (h len : UInt64) : Digest :=
  ⟨⟨(List.range 64).map fun i =>
    ((if i < 32 then h else len) >>> UInt64.ofNat (8 * (i % 8))).toUInt8 ^^^ UInt8.ofNat i,
    by simp⟩⟩

/-- The hash state: the word and the length so far, little-endian, in 16 bytes. -/
def stateBytes (h len : UInt64) : Bytes := Bytes.ofNatLE 8 h.toNat ++ Bytes.ofNatLE 8 len.toNat

@[simp] theorem length_stateBytes (h len : UInt64) : (stateBytes h len).length = 16 := by
  simp [stateBytes]

def wordAt (offset : Nat) (state : Bytes) : UInt64 :=
  UInt64.ofNat (Bytes.toNatLE ((state.drop offset).take 8))

/-! ### The calls -/

/-- Overwrites the front of a buffer, which must be long enough. -/
def writeFront {n : Nat} (buf : ByteVec n) (front : Bytes) : Step State (ByteVec n) :=
  if h : front.length ≤ n then
    return ⟨front ++ buf.toList.drop front.length, by simp; omega⟩
  else throw .outOfRange

/-- The parts of a buffer before and behind its first `m` bytes, which must exist. -/
def parts {n : Nat} (m : Nat) (buf : ByteVec n) : Step State (Bytes × Bytes) :=
  if m ≤ n then return (buf.toList.take m, buf.toList.drop m) else throw .outOfRange

def boxKeys : Step State (Answer (BoxPublicKey × BoxSecretKey)) := asking do
  let secret := ByteVec.replicate 32 (UInt8.ofNat (← get).calls)
  return .ok (⟨publicBytes secret⟩, ⟨secret⟩)

def agree (peer : BoxPublicKey) (secret : BoxSecretKey) : Step State (Answer SymmetricKey) :=
  asking (return .ok ⟨peer.xor secret.toByteVec⟩)

def sealInPlace {n : Nat} (nonce : Nonce) (key : SymmetricKey) : InPlace State n Unit :=
  working fun buf => do
    let (padding, message) ← parts Size.padding buf
    if padding.any (· != 0) then throw .dirtyPadding
    let body := masked key nonce message
    let boxed ← writeFront buf (Bytes.zeros Size.sealedPadding ++ weakTag key.toList body ++ body)
    return ⟨.ok (), boxed⟩

def unsealInPlace {n : Nat} (nonce : Nonce) (key : SymmetricKey) : InPlace State n Unit :=
  working fun buf => do
    let (padding, body) ← parts Size.padding buf
    if weakTag key.toList body != padding.drop Size.sealedPadding then return ⟨.error {}, buf⟩
    let opened ← writeFront buf (Bytes.zeros Size.padding ++ masked key nonce body)
    return ⟨.ok (), opened⟩

def signingKeysOfSeed (seed : SignSeed) : Step State (Answer (SignPublicKey × SignSecretKey)) :=
  let pk : SignPublicKey := ⟨publicBytes seed.toByteVec⟩
  asking (return .ok (pk, .ofHalves seed pk))

/-- The seed repeats the number of calls made before this one. -/
def signingKeys : Step State (Answer (SignPublicKey × SignSecretKey)) := do
  signingKeysOfSeed ⟨ByteVec.replicate 32 (UInt8.ofNat (← get).calls)⟩

def signInPlace {n : Nat} (secret : SignSecretKey) : InPlace State n Unit :=
  working fun buf => do
    let (_, message) ← parts Size.signature buf
    let signed ← writeFront buf (weakSignature secret.publicKey message).toList
    return ⟨.ok (), signed⟩

def signDetached (message : Bytes) (secret : SignSecretKey) : Step State (Answer Signature) :=
  asking (return .ok (weakSignature secret.publicKey message))

/-- A refused message leaves the whole buffer scribbled over. -/
def openSigned {n : Nat} (signed : Bytes) (pk : SignPublicKey) : InPlace State n Nat :=
  working fun buf => do
    let (signature, message) ← parts Size.signature (.ofList signed)
    if (weakSignature pk message).toList != signature then
      return ⟨.error {}, ByteVec.replicate n 0xee⟩
    let opened ← writeFront buf message
    let extra := if (← get).misreporting then 1 else 0
    return ⟨.ok (message.length + extra), opened⟩

def verifyDetached (signature : Signature) (message : Bytes) (pk : SignPublicKey) :
    Step State (Answer Unit) :=
  asking (return if weakSignature pk message = signature then .ok () else .error {})

def digest (message : Bytes) : Step State (Answer Digest) :=
  asking (return .ok (spread (message.foldl foldByte foldStart) (UInt64.ofNat message.length)))

def hashInit {n : Nat} : InPlace State n Unit :=
  working fun buf => do return ⟨.ok (), ← writeFront buf (stateBytes foldStart 0)⟩

def hashUpdate {n : Nat} (chunk : Bytes) : InPlace State n Unit :=
  working fun buf => do
    let (state, _) ← parts 16 buf
    let h := chunk.foldl foldByte (wordAt 0 state)
    let len := (wordAt 8 state).toNat + chunk.length
    if Nat.pow 2 64 ≤ len then throw .counterOverflow
    return ⟨.ok (), ← writeFront buf (stateBytes h (UInt64.ofNat len))⟩

def hashFinal {n : Nat} : InPlace State n Digest :=
  working fun buf => do
    let (state, _) ← parts 16 buf
    return ⟨.ok (spread (wordAt 0 state) (wordAt 8 state)), buf⟩

def provider : Provider State where
  name := "mock"
  hashStateBytes := 16
  boxKeys := boxKeys
  agree := agree
  sealInPlace := sealInPlace
  unsealInPlace := unsealInPlace
  signingKeys := signingKeys
  signingKeysOfSeed := signingKeysOfSeed
  signInPlace := signInPlace
  signDetached := signDetached
  openSigned := openSigned
  verifyDetached := verifyDetached
  digest := digest
  hashInit := hashInit
  hashUpdate := hashUpdate
  hashFinal := hashFinal

end Strongbox.StandIn
