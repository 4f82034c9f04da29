import Strongbox.Proofs.Guard.Equations

/-! # Signatures

A signature scheme says which signature a key gives a message, if any, and which ones a
public key accepts. Over a provider that follows a scheme, each guarded operation ends
with the scheme's outcome. -/

namespace Strongbox

structure SignatureScheme where
  publicKey : SignSeed → SignPublicKey
  /-- Secret keys that the scheme refuses give no signature. -/
  sign? : SignSecretKey → (message : Bytes) → Option Signature
  accepts : SignPublicKey → (message : Bytes) → Signature → Bool

namespace SignatureScheme

variable (c : SignatureScheme)

/-- Signing in place leaves the message where it was. -/
def signReply (secret : SignSecretKey) (front message : Bytes) : Answer Unit × Bytes :=
  match c.sign? secret message with
  | some signature => (.ok (), signature.toList ++ message)
  | none => (.error {}, front ++ message)

/-- The answer to a call that signs apart from the message. -/
def detachedReply (secret : SignSecretKey) (message : Bytes) : Answer Signature :=
  match c.sign? secret message with
  | some signature => .ok signature
  | none => .error {}

/-- The outcome behind the length checks: a refused key leaves zeros for a signature. -/
def signed (length : Nat) (secret : SignSecretKey) (message rest : Bytes) : Written Nat :=
  match c.sign? secret message with
  | some signature => ⟨.ok length, signature.toList ++ message ++ rest⟩
  | none => ⟨.error .failure, Bytes.zeros Size.signature ++ message ++ rest⟩

/-- The outcome of signing `message` into `out`. -/
def signOutcome (out message : Bytes) (secret : SignSecretKey) : Written Nat :=
  let length := message.length + Size.signature
  if out.length < length then .refuse (.capacity length out.length) out
  else c.signed length secret message (out.drop length)

/-- The outcome of signing in place. -/
def signInPlaceOutcome (buf : Bytes) (secret : SignSecretKey) : Written Nat :=
  if buf.length < Size.signature then .refuse (.capacity Size.signature buf.length) buf
  else c.signed buf.length secret (buf.drop Size.signature) []

/-- What signing over reserved bytes enters into the log. -/
def signingLog (begun failed : Event) (secret : SignSecretKey) (message : Bytes) : List Event :=
  match c.sign? secret message with
  | some _ => [begun]
  | none => [begun, failed]

/-- Whether a signed string carries a signature that the key accepts. -/
def opens (pk : SignPublicKey) (signed : Bytes) : Bool :=
  c.accepts pk (signed.drop Size.signature) ⟨.ofFront Size.signature signed⟩

/-- Opening copies the message into the buffer, or leaves some bytes. -/
def openReply (signed out left : Bytes) (pk : SignPublicKey) : Answer Nat × Bytes :=
  if c.opens pk signed then
    (.ok (signed.length - Size.signature),
      signed.drop Size.signature ++ out.drop (signed.length - Size.signature))
  else (.error {}, left)

/-- The outcome of opening `signed` into `out`. -/
def openOutcome (out signed : Bytes) (pk : SignPublicKey) : Written Nat :=
  if out.length < signed.length then .refuse (.capacity signed.length out.length) out
  else if signed.length < Size.signature then .refuse .failure out
  else if c.opens pk signed then
    ⟨.ok (signed.length - Size.signature),
      signed.drop Size.signature ++ out.drop (signed.length - Size.signature)⟩
  else ⟨.error .failure, Bytes.zeros signed.length ++ out.drop signed.length⟩

end SignatureScheme

namespace Guard

variable {σ : Type}

/-- A settled reply keeps nothing of what stood in front of the message. -/
theorem settle_signReply (c : SignatureScheme) (length : Nat) (secret : SignSecretKey)
    {front : Bytes} (message rest : Bytes) (begun failed : Event) (log : List Event) (q : σ)
    (hfront : front.length = Size.signature) :
    settle length wipeReserved rest begun failed log (c.signReply secret front message, q) =
      (c.signed length secret message rest,
        ⟨q, log ++ c.signingLog begun failed secret message⟩) := by
  rw [SignatureScheme.signReply, SignatureScheme.signed, SignatureScheme.signingLog]
  cases c.sign? secret message with
  | none => simp only [settle, wipeReserved, List.drop_left' hfront]
  | some signature => rfl

/-- The provider's signature calls follow a scheme in the states that are `ready`. -/
structure SignsBy (P : Provider σ) (ready : σ → Prop) (c : SignatureScheme) : Prop where
  keys : ∀ {q : σ} (seed : SignSeed), ready q →
    ∃ q', (P.signingKeysOfSeed seed).run q =
      .ok (.ok (c.publicKey seed, .ofHalves seed (c.publicKey seed)), q')
  detached : ∀ {q : σ} (message : Bytes) (secret : SignSecretKey), ready q →
    ∃ q', (P.signDetached message secret).run q =
      .ok (match c.sign? secret message with
        | some signature => .ok signature
        | none => .error {}, q')
  inPlace : ∀ {q : σ} (secret : SignSecretKey) {front : Bytes} (message : Bytes), ready q →
    front.length = Size.signature →
    ∃ q', (InPlace.onBytes (P.signInPlace secret) (front ++ message)).run q =
      .ok (c.signReply secret front message, q')
  verifies : ∀ {q : σ} (signature : Signature) (message : Bytes) (pk : SignPublicKey), ready q →
    ∃ q', (P.verifyDetached signature message pk).run q =
      .ok (if c.accepts pk message signature then .ok () else .error {}, q')
  opens : ∀ {q : σ} {signed out : Bytes} (pk : SignPublicKey), ready q →
    Size.signature ≤ signed.length → out.length = signed.length →
    ∃ left q', (InPlace.onBytes (P.openSigned signed pk) out).run q =
      .ok (c.openReply signed out left pk, q')

namespace SignsBy

variable {P : Provider σ} {ready : σ → Prop} {c : SignatureScheme} {s : Session σ}

theorem signingKeysOfSeed_ends (h : SignsBy P ready c) (hready : ready s.provider)
    (seed : SignSeed) :
    (signingKeysOfSeed P seed).Ends s
      (.ok (c.publicKey seed, .ofHalves seed (c.publicKey seed))) := by
  obtain ⟨q, hrun⟩ := h.keys seed hready
  rw [Action.Ends, signingKeysOfSeed_run, hrun]
  exact ⟨_, rfl⟩

theorem signDetached_ends (h : SignsBy P ready c) (hready : ready s.provider)
    (message : Bytes) (secret : SignSecretKey) :
    (signDetached P message secret).Ends s
      (match c.sign? secret message with
        | some signature => .ok signature
        | none => .error .failure) := by
  obtain ⟨q, hrun⟩ := h.detached message secret hready
  rw [Action.Ends, signDetached_run, hrun]
  cases c.sign? secret message with
  | none => exact ⟨_, rfl⟩
  | some signature => exact ⟨_, rfl⟩

theorem verifyDetached_ends (h : SignsBy P ready c) (hready : ready s.provider)
    (signature : Signature) (message : Bytes) (pk : SignPublicKey) :
    (verifyDetached P signature message pk).Ends s
      (if c.accepts pk message signature then .ok () else .error .failure) := by
  obtain ⟨q, hrun⟩ := h.verifies signature message pk hready
  rw [Action.Ends, verifyDetached_run, hrun]
  by_cases haccepts : c.accepts pk message signature
  · rw [if_pos haccepts, if_pos haccepts]
    exact ⟨_, rfl⟩
  · rw [if_neg haccepts, if_neg haccepts]
    exact ⟨_, rfl⟩

/-- A call on a buffer with room for the signature, settled, is the scheme's outcome. -/
theorem settle_sign (h : SignsBy P ready c) {q : σ} (hready : ready q) (length : Nat)
    (secret : SignSecretKey) {front : Bytes} (message rest : Bytes) (begun failed : Event)
    (log : List Event) (hfront : front.length = Size.signature) :
    ∃ t, settle length wipeReserved rest begun failed log <$>
      (InPlace.onBytes (P.signInPlace secret) (front ++ message)).run q =
        .ok (c.signed length secret message rest, t) := by
  obtain ⟨q', hrun⟩ := h.inPlace secret message hready hfront
  rw [hrun, Except.map_ok, settle_signReply c length secret message rest begun failed log q' hfront]
  exact ⟨_, rfl⟩

theorem sign_ends (h : SignsBy P ready c) (hready : ready s.provider) (out message : Bytes)
    (secret : SignSecretKey) :
    (sign P out message secret).Ends s (c.signOutcome out message secret) := by
  by_cases hsmall : out.length < message.length + Size.signature
  · rw [SignatureScheme.signOutcome, if_pos hsmall]
    exact ⟨_, sign_run_of_small P secret s hsmall⟩
  · have hlarge := Nat.le_of_not_lt hsmall
    have hfront : (out.take Size.signature).length = Size.signature :=
      List.length_take_of_le (by omega)
    rw [SignatureScheme.signOutcome, if_neg hsmall, Action.Ends, sign_run P secret s hlarge]
    exact h.settle_sign hready _ secret message _ _ _ _ hfront

theorem signInPlace_ends (h : SignsBy P ready c) (hready : ready s.provider) (buf : Bytes)
    (secret : SignSecretKey) :
    (signInPlace P buf secret).Ends s (c.signInPlaceOutcome buf secret) := by
  by_cases hshort : buf.length < Size.signature
  · rw [SignatureScheme.signInPlaceOutcome, if_pos hshort]
    exact ⟨_, signInPlace_run_of_short P secret s hshort⟩
  · have hlong := Nat.le_of_not_lt hshort
    have hfront : (buf.take Size.signature).length = Size.signature :=
      List.length_take_of_le (by omega)
    have hsettled := @settle_sign _ _ _ _ h _ hready buf.length secret (buf.take Size.signature)
      (buf.drop Size.signature) [] (.signing P.name (buf.length - Size.signature))
      (.signingFailed P.name) s.events hfront
    rw [List.take_append_drop] at hsettled
    rw [SignatureScheme.signInPlaceOutcome, if_neg hshort, Action.Ends,
      signInPlace_run P secret s hlong]
    exact hsettled

theorem openSigned_ends (h : SignsBy P ready c) (hready : ready s.provider)
    (out signed : Bytes) (pk : SignPublicKey) :
    (openSigned P out signed pk).Ends s (c.openOutcome out signed pk) := by
  by_cases hsmall : out.length < signed.length
  · rw [SignatureScheme.openOutcome, if_pos hsmall]
    exact ⟨_, openSigned_run_of_small P pk s hsmall⟩
  · have hfits := Nat.le_of_not_lt hsmall
    rw [SignatureScheme.openOutcome, if_neg hsmall]
    by_cases hshort : signed.length < Size.signature
    · rw [if_pos hshort]
      exact ⟨_, openSigned_run_of_short P pk s hfits hshort⟩
    · have hlong := Nat.le_of_not_lt hshort
      have hregion : (out.take signed.length).length = signed.length := by
        rw [List.length_take, Nat.min_eq_left hfits]
      rw [if_neg hshort, Action.Ends, openSigned_run P pk s hfits hlong]
      obtain ⟨left, q, hrun⟩ := h.opens pk hready hlong hregion
      by_cases hopens : c.opens pk signed
      · have hkept : (out.take signed.length).drop (signed.length - Size.signature) ++
            out.drop signed.length = out.drop (signed.length - Size.signature) := by
          rw [← List.drop_append_of_le_length (by rw [hregion]; exact Nat.sub_le _ _),
            List.take_append_drop]
        rw [SignatureScheme.openReply, if_pos hopens] at hrun
        rw [if_pos hopens, hrun]
        refine ⟨⟨q, s.events⟩, ?_⟩
        simp only [Except.map_ok, settleOpened, Except.toOption, ite_true, List.append_assoc, hkept]
      · rw [SignatureScheme.openReply, if_neg hopens] at hrun
        have hlength := InPlace.length_of_run_onBytes hrun
        rw [if_neg hopens, hrun]
        refine ⟨⟨q, s.events ++ [.openingFailed P.name]⟩, ?_⟩
        simp [settleOpened, Except.toOption, hlength, hregion]

end SignsBy

end Guard

end Strongbox
