import Strongbox.Proofs.Bytes
import Strongbox.Proofs.Guard.Signatures
import Strongbox.Provider.Joined
import Strongbox.Provider.Split

/-! # Signatures with the real providers

One loads the seed out of a secret key, the other checks the key against its seed. Both
follow one scheme. -/

namespace Strongbox

open Guard

/-- Only a secret key whose public half belongs to its seed signs. -/
def Primitives.scheme (p : Primitives) : SignatureScheme where
  publicKey := p.publicKey
  sign? secret message :=
    if p.isWellFormed secret then some (p.signature secret.seed message) else none
  accepts := p.accepts

namespace Split

variable (p : Primitives)

theorem signDetached_run (message : Bytes) (secret : SignSecretKey) (q : Entropy) :
    (signDetached p message secret).run q =
      .ok (p.scheme.detachedReply secret message, q) := by
  by_cases h : p.isWellFormed secret
  · simp [signDetached, loadSeed?, h, SignatureScheme.detachedReply, Primitives.scheme]
  · simp [signDetached, loadSeed?, h, SignatureScheme.detachedReply, Primitives.scheme]

theorem signInPlace_run (secret : SignSecretKey) {front : Bytes} (message : Bytes) (q : Entropy)
    (hfront : front.length = Size.signature) :
    (InPlace.onBytes (signInPlace p secret) (front ++ message)).run q =
      .ok (p.scheme.signReply secret front message, q) := by
  have hlong : ¬ (front ++ message).length < Size.signature := by
    rw [List.length_append, hfront]
    omega
  rw [InPlace.run_onBytes, SignatureScheme.signReply]
  by_cases h : p.isWellFormed secret
  · have hsign : p.scheme.sign? secret message = some (p.signature secret.seed message) :=
      if_pos h
    have hroom : (p.signature secret.seed message).toList.length ≤ (front ++ message).length := by
      rw [ByteVec.length_toList]
      exact Nat.le_of_not_lt hlong
    have hwritten := ByteVec.toList_overwrite_zero (.ofList (front ++ message)) hroom
    rw [ByteVec.length_toList, ByteVec.toList_ofList, List.drop_left' hfront] at hwritten
    simp only [signInPlace, hlong, ite_false, loadSeed?, h, ite_true, ByteVec.toList_ofList,
      List.drop_left' hfront, StateT.run_pure, pure_eq_ok, Except.map_ok, hwritten, hsign]
  · have hsign : p.scheme.sign? secret message = none := if_neg h
    simp only [signInPlace, hlong, ite_false, loadSeed?, h, reject, StateT.run_pure, pure_eq_ok,
      Except.map_ok, ByteVec.toList_ofList, hsign, Bool.false_eq_true]

theorem openSigned_run {signed out : Bytes} (pk : SignPublicKey) (q : Entropy)
    (hlong : Size.signature ≤ signed.length) (hout : out.length = signed.length) :
    (InPlace.onBytes (openSigned p signed pk) out).run q =
      .ok (p.scheme.openReply signed out out pk, q) := by
  have hchecks : ¬ (signed.length < Size.signature ∨ out.length < signed.length) := by omega
  have hroom : (signed.drop Size.signature).length ≤ out.length := by
    rw [List.length_drop, hout]
    exact Nat.sub_le _ _
  have hwritten := ByteVec.toList_overwrite_zero (.ofList out) hroom
  rw [InPlace.run_onBytes, SignatureScheme.openReply]
  by_cases h : p.scheme.opens pk signed
  · have haccepts : p.accepts pk (signed.drop Size.signature)
        ⟨.ofFront Size.signature signed⟩ = true := h
    simp only [openSigned, hchecks, ite_false, verifyDetached, haccepts, ite_true, h,
      StateT.run_pure, pure_bind, pure_eq_ok, Except.map_ok, hwritten, List.length_drop]
    rfl
  · have haccepts : ¬ p.accepts pk (signed.drop Size.signature)
        ⟨.ofFront Size.signature signed⟩ = true := h
    simp only [openSigned, hchecks, ite_false, verifyDetached, haccepts, h,
      Bool.false_eq_true, reject, StateT.run_pure, pure_bind, pure_eq_ok, Except.map_ok,
      ByteVec.toList_ofList]

theorem signsBy : SignsBy (provider p) (fun _ => True) p.scheme where
  keys {q} seed _ := by
    refine ⟨q, ?_⟩
    change (signingKeysOfSeed p seed).run q = _
    simp only [signingKeysOfSeed, SignSecretKey.publicKey_ofHalves]
    rfl
  detached message secret _ := ⟨_, signDetached_run p message secret _⟩
  inPlace secret _ message _ hfront := ⟨_, signInPlace_run p secret message _ hfront⟩
  verifies _ _ _ _ := ⟨_, rfl⟩
  opens pk _ hlong hout := ⟨_, _, openSigned_run p pk _ hlong hout⟩

end Split

namespace Joined

variable (p : Primitives)

theorem signDetached_run (message : Bytes) (secret : SignSecretKey) (q : Entropy) :
    (signDetached p message secret).run q =
      .ok (p.scheme.detachedReply secret message, q) := by
  by_cases h : p.isWellFormed secret
  · simp [signDetached, h, SignatureScheme.detachedReply, Primitives.scheme]
  · simp [signDetached, h, SignatureScheme.detachedReply, Primitives.scheme]

theorem signInPlace_run (secret : SignSecretKey) {front : Bytes} (message : Bytes) (q : Entropy)
    (hfront : front.length = Size.signature) :
    (InPlace.onBytes (signInPlace p secret) (front ++ message)).run q =
      .ok (p.scheme.signReply secret front message, q) := by
  have hlong : ¬ (front ++ message).length < Size.signature := by
    rw [List.length_append, hfront]
    omega
  rw [InPlace.run_onBytes, SignatureScheme.signReply]
  by_cases h : p.isWellFormed secret
  · have hsign : p.scheme.sign? secret message = some (p.signature secret.seed message) :=
      if_pos h
    simp only [signInPlace, h, Bool.not_true, Bool.false_eq_true, ite_false, hlong, dite_false,
      ByteVec.toList_ofList, List.drop_left' hfront, StateT.run_pure, pure_eq_ok, Except.map_ok,
      hsign]
  · have hsign : p.scheme.sign? secret message = none := if_neg h
    simp only [signInPlace, h, Bool.not_false, ite_true, reject, StateT.run_pure, pure_eq_ok,
      Except.map_ok, ByteVec.toList_ofList, hsign]

theorem openSigned_run {signed out : Bytes} (pk : SignPublicKey) (q : Entropy)
    (hlong : Size.signature ≤ signed.length) (hout : out.length = signed.length) :
    ∃ left, (InPlace.onBytes (openSigned p signed pk) out).run q =
      .ok (p.scheme.openReply signed out left pk, q) := by
  have hchecks : ¬ (signed.length < Size.signature ∨ out.length < signed.length) := by omega
  have hroom : (signed.drop Size.signature).length ≤ out.length := by
    rw [List.length_drop, hout]
    exact Nat.sub_le _ _
  have hwritten := ByteVec.toList_overwrite_zero (.ofList out) hroom
  rw [InPlace.run_onBytes]
  by_cases h : p.scheme.opens pk signed
  · have haccepts : p.accepts pk (signed.drop Size.signature)
        ⟨.ofFront Size.signature signed⟩ = true := h
    refine ⟨out, ?_⟩
    simp only [openSigned, hchecks, ite_false, haccepts, ite_true, SignatureScheme.openReply, h,
      StateT.run_pure, pure_eq_ok, Except.map_ok, hwritten, List.length_drop]
    rfl
  · have haccepts : ¬ p.accepts pk (signed.drop Size.signature)
        ⟨.ofFront Size.signature signed⟩ = true := h
    simp only [openSigned, hchecks, ite_false, haccepts, SignatureScheme.openReply, h,
      Bool.false_eq_true, StateT.run_pure, pure_eq_ok, Except.map_ok]
    exact ⟨_, rfl⟩

theorem signsBy : SignsBy (provider p) (fun _ => True) p.scheme where
  keys _ _ := ⟨_, rfl⟩
  detached message secret _ := ⟨_, signDetached_run p message secret _⟩
  inPlace secret _ message _ hfront := ⟨_, signInPlace_run p secret message _ hfront⟩
  verifies _ _ _ _ := ⟨_, rfl⟩
  opens pk _ hlong hout := by
    obtain ⟨left, hrun⟩ := openSigned_run p pk _ hlong hout
    exact ⟨left, _, hrun⟩

end Joined

end Strongbox
