import Strongbox.Proofs.Runs

/-! # Calls as data

Every call a provider can receive, with all it is given, and what the callers promise for
it. A provider that records its calls shows what it was asked. -/

namespace Strongbox

inductive Call where
  | boxKeys
  | agree (peer : BoxPublicKey) (secret : BoxSecretKey)
  | sealInPlace (buf : Bytes) (nonce : Nonce) (key : SymmetricKey)
  | unsealInPlace (buf : Bytes) (nonce : Nonce) (key : SymmetricKey)
  | signingKeys
  | signingKeysOfSeed (seed : SignSeed)
  | signInPlace (buf : Bytes) (secret : SignSecretKey)
  | signDetached (message : Bytes) (secret : SignSecretKey)
  | openSigned (out signed : Bytes) (pk : SignPublicKey)
  | verifyDetached (signature : Signature) (message : Bytes) (pk : SignPublicKey)
  | digest (message : Bytes)
  | hashInit (state : Bytes)
  | hashUpdate (state chunk : Bytes)
  | hashFinal (state : Bytes)

namespace Call

/-- What a call answers, with the bytes it leaves in the buffer it works on. -/
def Reply : Call → Type
  | .boxKeys => Answer (BoxPublicKey × BoxSecretKey)
  | .agree _ _ => Answer SymmetricKey
  | .sealInPlace _ _ _ => Answer Unit × Bytes
  | .unsealInPlace _ _ _ => Answer Unit × Bytes
  | .signingKeys => Answer (SignPublicKey × SignSecretKey)
  | .signingKeysOfSeed _ => Answer (SignPublicKey × SignSecretKey)
  | .signInPlace _ _ => Answer Unit × Bytes
  | .signDetached _ _ => Answer Signature
  | .openSigned _ _ _ => Answer Nat × Bytes
  | .verifyDetached _ _ _ => Answer Unit
  | .digest _ => Answer Digest
  | .hashInit _ => Answer Unit × Bytes
  | .hashUpdate _ _ => Answer Unit × Bytes
  | .hashFinal _ => Answer Digest × Bytes

/-- Whether the call works on a hash state. -/
def OnHashState : Call → Prop
  | .hashInit _ => True
  | .hashUpdate _ _ => True
  | .hashFinal _ => True
  | _ => False

/-- The promises of the callers to a provider whose hash states need `least` bytes. -/
def Allowed (least : Nat) : Call → Prop
  | .sealInPlace buf _ _ =>
    Size.padding ≤ buf.length ∧ buf.take Size.padding = Bytes.zeros Size.padding
  | .unsealInPlace buf _ _ => Size.padding ≤ buf.length
  | .signInPlace buf _ => Size.signature ≤ buf.length
  | .openSigned out signed _ => out.length = signed.length ∧ Size.signature ≤ signed.length
  | .hashInit state => least ≤ state.length
  | .hashUpdate state _ => least ≤ state.length
  | .hashFinal state => least ≤ state.length
  | _ => True

end Call

namespace Provider

variable {σ : Type} (P : Provider σ)

/-- The step that answers a call. -/
def perform : (c : Call) → Step σ c.Reply
  | .boxKeys => P.boxKeys
  | .agree peer secret => P.agree peer secret
  | .sealInPlace buf nonce key => InPlace.onBytes (P.sealInPlace nonce key) buf
  | .unsealInPlace buf nonce key => InPlace.onBytes (P.unsealInPlace nonce key) buf
  | .signingKeys => P.signingKeys
  | .signingKeysOfSeed seed => P.signingKeysOfSeed seed
  | .signInPlace buf secret => InPlace.onBytes (P.signInPlace secret) buf
  | .signDetached message secret => P.signDetached message secret
  | .openSigned out signed pk => InPlace.onBytes (P.openSigned signed pk) out
  | .verifyDetached signature message pk => P.verifyDetached signature message pk
  | .digest message => P.digest message
  | .hashInit state => InPlace.onBytes P.hashInit state
  | .hashUpdate state chunk => InPlace.onBytes (P.hashUpdate chunk) state
  | .hashFinal state => InPlace.onBytes P.hashFinal state

end Provider

/-- A step that first puts its call on a tape. -/
def Call.onTape {σ α : Type} (c : Call) (step : Step σ α) : Step (σ × List Call) α := fun q =>
  (fun r => (r.1, (r.2, q.2 ++ [c]))) <$> step.run q.1

/-- The provider with a tape of all its calls. -/
def Provider.taped {σ : Type} (P : Provider σ) : Provider (σ × List Call) where
  name := P.name
  hashStateBytes := P.hashStateBytes
  boxKeys := Call.boxKeys.onTape P.boxKeys
  agree peer secret := (Call.agree peer secret).onTape (P.agree peer secret)
  sealInPlace nonce key buf :=
    (Call.sealInPlace buf.toList nonce key).onTape (P.sealInPlace nonce key buf)
  unsealInPlace nonce key buf :=
    (Call.unsealInPlace buf.toList nonce key).onTape (P.unsealInPlace nonce key buf)
  signingKeys := Call.signingKeys.onTape P.signingKeys
  signingKeysOfSeed seed := (Call.signingKeysOfSeed seed).onTape (P.signingKeysOfSeed seed)
  signInPlace secret buf := (Call.signInPlace buf.toList secret).onTape (P.signInPlace secret buf)
  signDetached message secret :=
    (Call.signDetached message secret).onTape (P.signDetached message secret)
  openSigned signed pk buf :=
    (Call.openSigned buf.toList signed pk).onTape (P.openSigned signed pk buf)
  verifyDetached signature message pk :=
    (Call.verifyDetached signature message pk).onTape (P.verifyDetached signature message pk)
  digest message := (Call.digest message).onTape (P.digest message)
  hashInit buf := (Call.hashInit buf.toList).onTape (P.hashInit buf)
  hashUpdate chunk buf := (Call.hashUpdate buf.toList chunk).onTape (P.hashUpdate chunk buf)
  hashFinal buf := (Call.hashFinal buf.toList).onTape (P.hashFinal buf)

namespace Provider

variable {σ : Type} (P : Provider σ)

@[simp] theorem name_taped : P.taped.name = P.name := rfl

@[simp] theorem hashStateBytes_taped : P.taped.hashStateBytes = P.hashStateBytes := rfl

theorem onBytes_onTape {α : Type} (step : {n : Nat} → InPlace σ n α)
    (tapedStep : {n : Nat} → InPlace (σ × List Call) n α) {buf : Bytes} {c : Call}
    (h : tapedStep (ByteVec.ofList buf) = c.onTape (step (.ofList buf))) :
    InPlace.onBytes tapedStep buf = c.onTape (InPlace.onBytes step buf) := by
  funext q
  change (InPlace.onBytes tapedStep buf).run q =
    (fun r => (r.1, (r.2, q.2 ++ [c]))) <$> (InPlace.onBytes step buf).run q.1
  rw [InPlace.run_onBytes, InPlace.run_onBytes, h, Functor.map_map]
  change _ <$> (_ <$> _) = _
  rw [Functor.map_map]

/-- The provider answers as it did, and the tape is longer by the call. -/
theorem perform_taped (c : Call) : P.taped.perform c = c.onTape (P.perform c) := by
  cases c with
  | sealInPlace buf nonce key =>
      exact onBytes_onTape (P.sealInPlace nonce key) (P.taped.sealInPlace nonce key) rfl
  | unsealInPlace buf nonce key =>
      exact onBytes_onTape (P.unsealInPlace nonce key) (P.taped.unsealInPlace nonce key) rfl
  | signInPlace buf secret =>
      exact onBytes_onTape (P.signInPlace secret) (P.taped.signInPlace secret) rfl
  | openSigned out signed pk =>
      exact onBytes_onTape (P.openSigned signed pk) (P.taped.openSigned signed pk) rfl
  | hashInit state => exact onBytes_onTape P.hashInit P.taped.hashInit rfl
  | hashUpdate state chunk =>
      exact onBytes_onTape (P.hashUpdate chunk) (P.taped.hashUpdate chunk) rfl
  | hashFinal state => exact onBytes_onTape P.hashFinal P.taped.hashFinal rfl
  | _ => rfl

theorem tape_of_perform {c : Call} {q q' : σ × List Call} {reply : c.Reply}
    (h : (P.taped.perform c).run q = .ok (reply, q')) : q'.2 = q.2 ++ [c] := by
  have hrun : (P.taped.perform c).run q =
      (fun r => (r.1, (r.2, q.2 ++ [c]))) <$> (P.perform c).run q.1 :=
    congrFun (P.perform_taped c) q
  rw [hrun] at h
  cases hanswer : (P.perform c).run q.1 with
  | error v =>
      rw [hanswer] at h
      cases h
  | ok r =>
      rw [hanswer] at h
      cases h
      rfl

end Provider

end Strongbox
