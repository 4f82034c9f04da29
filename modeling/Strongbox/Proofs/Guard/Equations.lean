import Strongbox.Guard.Box
import Strongbox.Guard.Hash
import Strongbox.Guard.Keys
import Strongbox.Guard.Sign
import Strongbox.Proofs.Runs

/-! # Runs of guarded operations

A guarded operation that passes its checks is one call of the provider on known bytes,
between two entries in the log. The equations hold for every provider. -/

namespace Strongbox.Guard

variable {σ : Type} (P : Provider σ)

/-- A provider's answer as it is passed on: a rejection becomes a failure. -/
def reported {α : Type} : Answer α → Except CryptoError α
  | .ok a => .ok a
  | .error _ => .error .failure

/-! ## Calls without a buffer -/

theorem boxKeys_run (s : Session σ) :
    (boxKeys P).run s =
      (fun r => (reported r.1, ⟨r.2, s.events ++ match r.1 with
        | .ok _ => [.boxKeysMade P.name]
        | .error _ => []⟩)) <$> P.boxKeys.run s.provider := by
  apply Action.run_call_bind
  intro answer q
  cases answer with
  | ok keys => rfl
  | error e => simp [reported]

theorem signingKeys_run (s : Session σ) :
    (signingKeys P).run s =
      (fun r => (reported r.1, ⟨r.2, s.events ++ match r.1 with
        | .ok _ => [.signingKeysMade P.name]
        | .error _ => []⟩)) <$> P.signingKeys.run s.provider := by
  apply Action.run_call_bind
  intro answer q
  cases answer with
  | ok keys => rfl
  | error e => simp [reported]

theorem signingKeysOfSeed_run (seed : SignSeed) (s : Session σ) :
    (signingKeysOfSeed P seed).run s =
      (fun r => (reported r.1, { s with provider := r.2 })) <$>
        (P.signingKeysOfSeed seed).run s.provider := by
  apply Action.run_call_bind
  intro answer q
  cases answer <;> rfl

theorem agree_run (peer : BoxPublicKey) (secret : BoxSecretKey) (s : Session σ) :
    (agree P peer secret).run s =
      (fun r => (reported r.1, ⟨r.2, s.events ++ match r.1 with
        | .ok _ => []
        | .error _ => [.agreementRejected P.name]⟩)) <$>
          (P.agree peer secret).run s.provider := by
  apply Action.run_call_bind
  intro answer q
  cases answer with
  | ok key => simp [reported]
  | error e => rfl

theorem signDetached_run (message : Bytes) (secret : SignSecretKey) (s : Session σ) :
    (signDetached P message secret).run s =
      (fun r => (reported r.1, { s with provider := r.2 })) <$>
        (P.signDetached message secret).run s.provider := by
  apply Action.run_call_bind
  intro answer q
  cases answer <;> rfl

theorem verifyDetached_run (signature : Signature) (message : Bytes) (pk : SignPublicKey)
    (s : Session σ) :
    (verifyDetached P signature message pk).run s =
      (fun r => (reported r.1, ⟨r.2, s.events ++ match r.1 with
        | .ok _ => []
        | .error _ => [.verificationFailed P.name]⟩)) <$>
          (P.verifyDetached signature message pk).run s.provider := by
  apply Action.run_call_bind
  intro answer q
  cases answer with
  | ok u => simp [reported]
  | error e => rfl

theorem digest_run (message : Bytes) (s : Session σ) :
    (digest P message).run s =
      (fun r => (reported r.1, { s with provider := r.2 })) <$>
        (P.digest message).run s.provider := by
  apply Action.run_call_bind
  intro answer q
  cases answer <;> rfl

/-! ## Calls on a buffer -/

/-- The end of a call that answers no value of its own: `value` on success, and what
`wipe` leaves of the bytes on a rejection. -/
def settle {β : Type} (value : β) (wipe : Bytes → Bytes) (rest : Bytes) (begun failed : Event)
    (log : List Event) (r : (Answer Unit × Bytes) × σ) : Written β × Session σ :=
  match r.1.1 with
  | .ok () => (⟨.ok value, r.1.2 ++ rest⟩, ⟨r.2, log ++ [begun]⟩)
  | .error _ => (⟨.error .failure, wipe r.1.2 ++ rest⟩, ⟨r.2, log ++ [begun, failed]⟩)

theorem settle_followedBy {β : Type} (value : β) (wipe : Bytes → Bytes) (rest : Bytes)
    (begun failed : Event) (log : List Event) (r : (Answer Unit × Bytes) × σ) :
    ((settle value wipe [] begun failed log r).1.followedBy rest,
      (settle value wipe [] begun failed log r).2) =
        settle value wipe rest begun failed log r := by
  obtain ⟨⟨answer, bytes⟩, p⟩ := r
  cases answer <;> simp [settle, Written.followedBy]

/-- A box operation wipes everything. -/
def wipeAll (bytes : Bytes) : Bytes := Bytes.zeros bytes.length

/-- A signing operation wipes the reserved bytes in front of the message. -/
def wipeReserved (bytes : Bytes) : Bytes :=
  Bytes.zeros Size.signature ++ bytes.drop Size.signature

/-! ## Sealing -/

theorem length_padded {buf : Bytes} (h : Size.padding ≤ buf.length) :
    (Bytes.zeros Size.padding ++ buf.drop Size.padding).length = buf.length := by
  rw [List.length_append, Bytes.length_zeros, List.length_drop, Nat.add_sub_cancel' h]

theorem sealPadded_run (buf : Bytes) (nonce : Nonce) (key : SymmetricKey) (s : Session σ)
    (h : Size.padding ≤ buf.length) :
    (sealPadded P buf nonce key).run s =
      settle () wipeAll [] (.sealing P.name (buf.length - Size.padding))
        (.sealingFailed P.name) s.events <$>
          (InPlace.onBytes (P.sealInPlace nonce key)
            (Bytes.zeros Size.padding ++ buf.drop Size.padding)).run s.provider := by
  have hlength := length_padded h
  rw [sealPadded, Action.cut_of_le h, pure_bind, StateT.run_bind, Action.run_emit, ok_bind]
  apply Action.run_call_onBytes (P.sealInPlace nonce key)
  intro reply q
  obtain ⟨result, bytes⟩ := reply
  cases result with
  | ok u => simp [settle]
  | error e => simp [settle, wipeAll]

theorem sealBox_run_of_short {out padded : Bytes} (nonce : Nonce) (key : SymmetricKey)
    (s : Session σ) (h : padded.length < Size.padding) :
    (sealBox P out padded nonce key).run s =
      .ok (.refuse (.capacity Size.padding padded.length) out,
        { s with events := s.events ++ [.paddingMissing Size.padding padded.length] }) := by
  simp only [sealBox, h, ite_true]
  rfl

theorem sealBox_run_of_small {out padded : Bytes} (nonce : Nonce) (key : SymmetricKey)
    (s : Session σ) (h : Size.padding ≤ padded.length) (hout : out.length < padded.length) :
    (sealBox P out padded nonce key).run s =
      .ok (.refuse (.capacity padded.length out.length) out,
        { s with events := s.events ++ [.outputTooSmall padded.length out.length] }) := by
  simp only [sealBox, Nat.not_lt.mpr h, hout, ite_true, ite_false]
  rfl

theorem sealBox_run {out padded : Bytes} (nonce : Nonce) (key : SymmetricKey)
    (s : Session σ) (h : Size.padding ≤ padded.length) (hout : padded.length ≤ out.length) :
    (sealBox P out padded nonce key).run s =
      settle () wipeAll (out.drop padded.length)
        (.sealing P.name (padded.length - Size.padding)) (.sealingFailed P.name) s.events <$>
          (InPlace.onBytes (P.sealInPlace nonce key)
            (Bytes.zeros Size.padding ++ padded.drop Size.padding)).run s.provider := by
  have hregion : Size.padding ≤ (out.take padded.length).length := by
    rw [List.length_take]
    omega
  have hreserved : ((out.take padded.length).take Size.padding).length = Size.padding := by
    rw [List.length_take]
    omega
  have hbuf : ((out.take padded.length).take Size.padding ++ padded.drop Size.padding).length =
      padded.length := by
    rw [List.length_append, hreserved, List.length_drop]
    omega
  have hrun := sealPadded_run P
    ((out.take padded.length).take Size.padding ++ padded.drop Size.padding) nonce key s
    (by omega)
  rw [List.drop_left' hreserved, hbuf] at hrun
  simp only [sealBox, Nat.not_lt.mpr h, Nat.not_lt.mpr hout, ite_false, Action.cut_of_le hout,
    Action.cut_of_le hregion, Action.cut_of_le h, pure_bind, StateT.run_bind, hrun]
  cases (InPlace.onBytes (P.sealInPlace nonce key)
    (Bytes.zeros Size.padding ++ padded.drop Size.padding)).run s.provider with
  | error v => rfl
  | ok r => exact congrArg Except.ok (settle_followedBy _ _ _ _ _ _ r)

theorem sealBoxInPlace_run_of_short {buf : Bytes} (nonce : Nonce) (key : SymmetricKey)
    (s : Session σ) (h : buf.length < Size.padding) :
    (sealBoxInPlace P buf nonce key).run s =
      .ok (.refuse (.capacity Size.padding buf.length) buf,
        { s with events := s.events ++ [.paddingMissing Size.padding buf.length] }) := by
  simp only [sealBoxInPlace, h, ite_true]
  rfl

theorem sealBoxInPlace_run {buf : Bytes} (nonce : Nonce) (key : SymmetricKey)
    (s : Session σ) (h : Size.padding ≤ buf.length) :
    (sealBoxInPlace P buf nonce key).run s =
      settle () wipeAll [] (.sealing P.name (buf.length - Size.padding))
        (.sealingFailed P.name) s.events <$>
          (InPlace.onBytes (P.sealInPlace nonce key)
            (Bytes.zeros Size.padding ++ buf.drop Size.padding)).run s.provider := by
  simp only [sealBoxInPlace, Nat.not_lt.mpr h, ite_false]
  exact sealPadded_run P buf nonce key s h

/-! ## Unsealing -/

theorem unsealPadded_run (buf : Bytes) (nonce : Nonce) (key : SymmetricKey) (s : Session σ)
    (h : Size.padding ≤ buf.length) :
    (unsealPadded P buf nonce key).run s =
      settle () wipeAll [] (.unsealing P.name (buf.length - Size.padding))
        (.unsealingFailed P.name) s.events <$>
          (InPlace.onBytes (P.unsealInPlace nonce key) buf).run s.provider := by
  rw [unsealPadded, Action.cut_of_le h, pure_bind, StateT.run_bind, Action.run_emit, ok_bind]
  apply Action.run_call_onBytes (P.unsealInPlace nonce key)
  intro reply q
  obtain ⟨result, bytes⟩ := reply
  cases result with
  | ok u => simp [settle]
  | error e => simp [settle, wipeAll]

theorem unsealBox_run_of_short {out boxed : Bytes} (nonce : Nonce) (key : SymmetricKey)
    (s : Session σ) (h : boxed.length < Size.padding) :
    (unsealBox P out boxed nonce key).run s =
      .ok (.refuse .failure out,
        { s with events := s.events ++ [.sealedTooShort P.name boxed.length] }) := by
  simp only [unsealBox, h, ite_true]
  rfl

theorem unsealBox_run_of_small {out boxed : Bytes} (nonce : Nonce) (key : SymmetricKey)
    (s : Session σ) (h : Size.padding ≤ boxed.length) (hout : out.length < boxed.length) :
    (unsealBox P out boxed nonce key).run s =
      .ok (.refuse (.capacity boxed.length out.length) out,
        { s with events := s.events ++ [.outputTooSmall boxed.length out.length] }) := by
  simp only [unsealBox, Nat.not_lt.mpr h, hout, ite_true, ite_false]
  rfl

theorem unsealBox_run {out boxed : Bytes} (nonce : Nonce) (key : SymmetricKey)
    (s : Session σ) (h : Size.padding ≤ boxed.length) (hout : boxed.length ≤ out.length) :
    (unsealBox P out boxed nonce key).run s =
      settle () wipeAll (out.drop boxed.length)
        (.unsealing P.name (boxed.length - Size.padding)) (.unsealingFailed P.name) s.events <$>
          (InPlace.onBytes (P.unsealInPlace nonce key) boxed).run s.provider := by
  simp only [unsealBox, Nat.not_lt.mpr h, Nat.not_lt.mpr hout, ite_false,
    Action.cut_of_le hout, pure_bind, StateT.run_bind, unsealPadded_run P boxed nonce key s h]
  cases (InPlace.onBytes (P.unsealInPlace nonce key) boxed).run s.provider with
  | error v => rfl
  | ok r => exact congrArg Except.ok (settle_followedBy _ _ _ _ _ _ r)

theorem unsealBoxInPlace_run_of_short {buf : Bytes} (nonce : Nonce) (key : SymmetricKey)
    (s : Session σ) (h : buf.length < Size.padding) :
    (unsealBoxInPlace P buf nonce key).run s =
      .ok (.refuse .failure buf,
        { s with events := s.events ++ [.sealedTooShort P.name buf.length] }) := by
  simp only [unsealBoxInPlace, h, ite_true]
  rfl

theorem unsealBoxInPlace_run {buf : Bytes} (nonce : Nonce) (key : SymmetricKey)
    (s : Session σ) (h : Size.padding ≤ buf.length) :
    (unsealBoxInPlace P buf nonce key).run s =
      settle () wipeAll [] (.unsealing P.name (buf.length - Size.padding))
        (.unsealingFailed P.name) s.events <$>
          (InPlace.onBytes (P.unsealInPlace nonce key) buf).run s.provider := by
  simp only [unsealBoxInPlace, Nat.not_lt.mpr h, ite_false]
  exact unsealPadded_run P buf nonce key s h

/-! ## Signing -/

theorem signReserved_run (buf : Bytes) (secret : SignSecretKey) (s : Session σ)
    (h : Size.signature ≤ buf.length) :
    (signReserved P buf secret).run s =
      settle buf.length wipeReserved [] (.signing P.name (buf.length - Size.signature))
        (.signingFailed P.name) s.events <$>
          (InPlace.onBytes (P.signInPlace secret) buf).run s.provider := by
  rw [signReserved, Action.cut_of_le h, pure_bind, StateT.run_bind, Action.run_emit, ok_bind]
  apply Action.run_call_onBytes (P.signInPlace secret)
  intro reply q
  obtain ⟨result, bytes⟩ := reply
  have hcut : Size.signature ≤ bytes.toList.length := by
    rwa [ByteVec.length_toList]
  cases result with
  | ok u => simp [settle]
  | error e => simp [settle, wipeReserved, Action.cut_of_le hcut]

theorem sign_run_of_small {out message : Bytes} (secret : SignSecretKey) (s : Session σ)
    (h : out.length < message.length + Size.signature) :
    (sign P out message secret).run s =
      .ok (.refuse (.capacity (message.length + Size.signature) out.length) out,
        { s with events := s.events ++
          [.outputTooSmall (message.length + Size.signature) out.length] }) := by
  simp only [sign, h, ite_true]
  rfl

theorem sign_run {out message : Bytes} (secret : SignSecretKey) (s : Session σ)
    (h : message.length + Size.signature ≤ out.length) :
    (sign P out message secret).run s =
      settle (message.length + Size.signature) wipeReserved
        (out.drop (message.length + Size.signature)) (.signing P.name message.length)
        (.signingFailed P.name) s.events <$>
          (InPlace.onBytes (P.signInPlace secret)
            (out.take Size.signature ++ message)).run s.provider := by
  have hregion : Size.signature ≤ (out.take (message.length + Size.signature)).length := by
    rw [List.length_take]
    omega
  have hreserved : (out.take (message.length + Size.signature)).take Size.signature =
      out.take Size.signature := by
    rw [List.take_take, Nat.min_eq_left (Nat.le_add_left _ _)]
  have hbuf : (out.take Size.signature ++ message).length =
      message.length + Size.signature := by
    rw [List.length_append, List.length_take]
    omega
  have hrun := signReserved_run P (out.take Size.signature ++ message) secret s (by omega)
  rw [hbuf, Nat.add_sub_cancel] at hrun
  simp only [sign, Nat.not_lt.mpr h, ite_false, Action.cut_of_le h, Action.cut_of_le hregion,
    pure_bind, StateT.run_bind, hreserved, hrun]
  cases (InPlace.onBytes (P.signInPlace secret)
    (out.take Size.signature ++ message)).run s.provider with
  | error v => rfl
  | ok r => exact congrArg Except.ok (settle_followedBy _ _ _ _ _ _ r)

theorem signInPlace_run_of_short {buf : Bytes} (secret : SignSecretKey) (s : Session σ)
    (h : buf.length < Size.signature) :
    (signInPlace P buf secret).run s =
      .ok (.refuse (.capacity Size.signature buf.length) buf,
        { s with events := s.events ++ [.outputTooSmall Size.signature buf.length] }) := by
  simp only [signInPlace, h, ite_true]
  rfl

theorem signInPlace_run {buf : Bytes} (secret : SignSecretKey) (s : Session σ)
    (h : Size.signature ≤ buf.length) :
    (signInPlace P buf secret).run s =
      settle buf.length wipeReserved [] (.signing P.name (buf.length - Size.signature))
        (.signingFailed P.name) s.events <$>
          (InPlace.onBytes (P.signInPlace secret) buf).run s.provider := by
  simp only [signInPlace, Nat.not_lt.mpr h, ite_false]
  exact signReserved_run P buf secret s h

/-! ## Opening signed messages -/

/-- The end of an opening: only the length of the message counts as success. -/
def settleOpened (length : Nat) (rest : Bytes) (failed : Event) (log : List Event)
    (r : (Answer Nat × Bytes) × σ) : Written Nat × Session σ :=
  if r.1.1.toOption = some length then (⟨.ok length, r.1.2 ++ rest⟩, ⟨r.2, log⟩)
  else (⟨.error .failure, Bytes.zeros r.1.2.length ++ rest⟩, ⟨r.2, log ++ [failed]⟩)

theorem openSigned_run_of_small {out signed : Bytes} (pk : SignPublicKey) (s : Session σ)
    (h : out.length < signed.length) :
    (openSigned P out signed pk).run s =
      .ok (.refuse (.capacity signed.length out.length) out,
        { s with events := s.events ++ [.outputTooSmall signed.length out.length] }) := by
  simp only [openSigned, h, ite_true]
  rfl

theorem openSigned_run_of_short {out signed : Bytes} (pk : SignPublicKey) (s : Session σ)
    (hout : signed.length ≤ out.length) (h : signed.length < Size.signature) :
    (openSigned P out signed pk).run s =
      .ok (.refuse .failure out,
        { s with events := s.events ++ [.signedTooShort P.name signed.length] }) := by
  simp only [openSigned, Nat.not_lt.mpr hout, Action.cut_of_le hout, h, ite_true, ite_false]
  rfl

theorem openSigned_run {out signed : Bytes} (pk : SignPublicKey) (s : Session σ)
    (hout : signed.length ≤ out.length) (h : Size.signature ≤ signed.length) :
    (openSigned P out signed pk).run s =
      settleOpened (signed.length - Size.signature) (out.drop signed.length)
        (.openingFailed P.name) s.events <$>
          (InPlace.onBytes (P.openSigned signed pk)
            (out.take signed.length)).run s.provider := by
  rw [openSigned, if_neg (Nat.not_lt.mpr hout), Action.cut_of_le hout, pure_bind]
  simp only [Nat.not_lt.mpr h, ite_false]
  apply Action.run_call_onBytes (P.openSigned signed pk)
  intro reply q
  by_cases hlength : reply.result.toOption = some (signed.length - Size.signature)
  · simp [settleOpened, hlength]
  · simp [settleOpened, hlength]

end Strongbox.Guard
