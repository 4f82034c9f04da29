import Strongbox.Command.Wire
import Strongbox.Proofs.Guard.Signatures

/-! # The ways to sign

A message is signed into an output, behind reserved bytes of its own buffer, or apart. Over
a provider whose two signing calls follow one scheme the three come to one signature or are
refused together, and nothing shows what the buffers held. -/

namespace Strongbox

namespace SignatureScheme

variable (c : SignatureScheme)

/-- A scheme that signs with the secret keys it makes of seeds, and with no others. -/
def SignsOwnKeys : Prop :=
  ∀ secret message, (c.sign? secret message).isSome ↔
    secret.publicKey = c.publicKey secret.seed

variable {c} {secret : SignSecretKey} {message : Bytes}

theorem exists_ok_eq_signed_iff (length : Nat) (rest : Bytes) :
    (∃ n after, ⟨.ok n, after⟩ = c.signed length secret message rest) ↔
      (c.sign? secret message).isSome := by
  rw [signed]
  cases c.sign? secret message with
  | none => simp
  | some signature => exact ⟨fun _ => rfl, fun _ => ⟨_, _, rfl⟩⟩

theorem signed_of_refused (length : Nat) (rest : Bytes) (h : c.sign? secret message = none) :
    c.signed length secret message rest =
      ⟨.error .failure, Bytes.zeros Size.signature ++ message ++ rest⟩ := by
  rw [signed, h]

theorem signOutcome_of_room {out : Bytes} (h : message.length + Size.signature ≤ out.length) :
    c.signOutcome out message secret = c.signed (message.length + Size.signature) secret message
      (out.drop (message.length + Size.signature)) := by
  rw [signOutcome, if_neg (Nat.not_lt.mpr h)]

theorem signInPlaceOutcome_of_long {buf : Bytes} (h : Size.signature ≤ buf.length) :
    c.signInPlaceOutcome buf secret =
      c.signed buf.length secret (buf.drop Size.signature) [] := by
  rw [signInPlaceOutcome, if_neg (Nat.not_lt.mpr h)]

end SignatureScheme

namespace Guard

variable {σ : Type}

/-! ## One signature -/

/-- The provider's two signing calls follow the scheme in the states that are `ready`, and
lead to the state `next`, whatever stands in the reserved bytes. -/
structure SignsAlike (P : Provider σ) (ready : σ → Prop) (next : σ → σ) (c : SignatureScheme) :
    Prop where
  detached : ∀ {q : σ} (message : Bytes) (secret : SignSecretKey), ready q →
    (P.signDetached message secret).run q = .ok (c.detachedReply secret message, next q)
  inPlace : ∀ {q : σ} (secret : SignSecretKey) {front : Bytes} (message : Bytes), ready q →
    front.length = Size.signature →
    (InPlace.onBytes (P.signInPlace secret) (front ++ message)).run q =
      .ok (c.signReply secret front message, next q)

/-- The three ways to sign a message in one session. Each leads to the provider state `next`.
The two that write leave the signature in front of the message, or zeros for one, with the
same entries in the log. -/
structure SignsThreeWays (P : Provider σ) (s : Session σ) (next : σ) (c : SignatureScheme)
    (secret : SignSecretKey) (message : Bytes) : Prop where
  detached : (signDetached P message secret).run s =
    .ok (reported (c.detachedReply secret message), { s with provider := next })
  into : ∀ out, message.length + Size.signature ≤ out.length →
    (sign P out message secret).run s =
      .ok (c.signed (message.length + Size.signature) secret message
          (out.drop (message.length + Size.signature)),
        ⟨next, s.events ++ c.signingLog (.signing P.name message.length)
          (.signingFailed P.name) secret message⟩)
  inPlace : ∀ reserved : Bytes, reserved.length = Size.signature →
    (signInPlace P (reserved ++ message) secret).run s =
      .ok (c.signed (message.length + Size.signature) secret message [],
        ⟨next, s.events ++ c.signingLog (.signing P.name message.length)
          (.signingFailed P.name) secret message⟩)

namespace SignsAlike

variable {P : Provider σ} {ready : σ → Prop} {next : σ → σ} {c : SignatureScheme}
  {s : Session σ}

theorem signDetached_run (h : SignsAlike P ready next c) (hready : ready s.provider)
    (secret : SignSecretKey) (message : Bytes) :
    (signDetached P message secret).run s =
      .ok (reported (c.detachedReply secret message), { s with provider := next s.provider }) := by
  rw [Guard.signDetached_run, h.detached message secret hready]
  rfl

theorem sign_run (h : SignsAlike P ready next c) (hready : ready s.provider)
    (secret : SignSecretKey) (message : Bytes) {out : Bytes}
    (hroom : message.length + Size.signature ≤ out.length) :
    (sign P out message secret).run s =
      .ok (c.signed (message.length + Size.signature) secret message
          (out.drop (message.length + Size.signature)),
        ⟨next s.provider, s.events ++ c.signingLog (.signing P.name message.length)
          (.signingFailed P.name) secret message⟩) := by
  have hfront : (out.take Size.signature).length = Size.signature :=
    List.length_take_of_le (by omega)
  rw [Guard.sign_run P secret s hroom, h.inPlace secret message hready hfront, Except.map_ok,
    settle_signReply c _ secret message _ _ _ s.events _ hfront]

theorem signInPlace_run (h : SignsAlike P ready next c) (hready : ready s.provider)
    (secret : SignSecretKey) (message : Bytes) {reserved : Bytes}
    (hreserved : reserved.length = Size.signature) :
    (signInPlace P (reserved ++ message) secret).run s =
      .ok (c.signed (message.length + Size.signature) secret message [],
        ⟨next s.provider, s.events ++ c.signingLog (.signing P.name message.length)
          (.signingFailed P.name) secret message⟩) := by
  have hlength : (reserved ++ message).length = message.length + Size.signature := by
    rw [List.length_append, hreserved, Nat.add_comm]
  have hlong : Size.signature ≤ (reserved ++ message).length := by
    rw [hlength]
    exact Nat.le_add_left _ _
  rw [Guard.signInPlace_run P secret s hlong, h.inPlace secret message hready hreserved,
    Except.map_ok, hlength, Nat.add_sub_cancel,
    settle_signReply c _ secret message _ _ _ s.events _ hreserved]

theorem signsThreeWays (h : SignsAlike P ready next c) (hready : ready s.provider)
    (secret : SignSecretKey) (message : Bytes) :
    SignsThreeWays P s (next s.provider) c secret message where
  detached := h.signDetached_run hready secret message
  into _ hroom := h.sign_run hready secret message hroom
  inPlace _ hreserved := h.signInPlace_run hready secret message hreserved

end SignsAlike

/-! ## Keys that sign -/

/-- The secret key is the one that the provider makes of the key's own seed. -/
def MakesKey (P : Provider σ) (t : Session σ) (secret : SignSecretKey) : Prop :=
  ∃ pk, (signingKeysOfSeed P secret.seed).Ends t (.ok (pk, secret))

/-- The provider signs with the secret keys that it makes of seeds, and with no others. With
any other key all ways to sign are refused, and where a buffer is long enough it keeps its
message behind zeros. -/
structure SignsWithMadeKeys (P : Provider σ) (s t : Session σ)
    (publicKey : SignSeed → SignPublicKey) : Prop where
  /-- Exactly these keys have the public half that belongs to their seed. -/
  makes_iff : ∀ secret, MakesKey P t secret ↔ secret.publicKey = publicKey secret.seed
  detached_iff : ∀ secret message,
    (∃ signature, (signDetached P message secret).Ends s (.ok signature)) ↔ MakesKey P t secret
  into_iff : ∀ secret message out, message.length + Size.signature ≤ out.length →
    ((∃ n after, (sign P out message secret).Ends s ⟨.ok n, after⟩) ↔ MakesKey P t secret)
  inPlace_iff : ∀ secret buf, Size.signature ≤ buf.length →
    ((∃ n after, (signInPlace P buf secret).Ends s ⟨.ok n, after⟩) ↔ MakesKey P t secret)
  detached_refused : ∀ secret message, ¬ MakesKey P t secret →
    (signDetached P message secret).Ends s (.error .failure)
  into_refused : ∀ secret message out, message.length + Size.signature ≤ out.length →
    ¬ MakesKey P t secret →
    (sign P out message secret).Ends s ⟨.error .failure, Bytes.zeros Size.signature ++ message ++
      out.drop (message.length + Size.signature)⟩
  inPlace_refused : ∀ secret buf, Size.signature ≤ buf.length → ¬ MakesKey P t secret →
    (signInPlace P buf secret).Ends s
      ⟨.error .failure, Bytes.zeros Size.signature ++ buf.drop Size.signature⟩
  /-- Every seed gives a key that is made of it, with its public half shown beside it. -/
  seeded : ∀ seed, ∃ pk secret, (signingKeysOfSeed P seed).Ends t (.ok (pk, secret)) ∧
    secret.seed = seed ∧ secret.publicKey = pk ∧ MakesKey P t secret

namespace SignsBy

variable {P : Provider σ} {ready : σ → Prop} {c : SignatureScheme} {s t : Session σ}

/-- What leaves the program is the signature in front of its message. -/
theorem signMessage_ends (h : SignsBy P ready c) (hs : ready s.provider)
    (secret : SignSecretKey) (message : Bytes) :
    (Wire.signMessage P secret message).Ends s
      (match c.sign? secret message with
        | some signature => .ok (signature.toList ++ message)
        | none => .error (.signing .failure)) := by
  have hreserved : (Bytes.zeros Size.signature).length = Size.signature := Bytes.length_zeros _
  have hlong : ¬ (Bytes.zeros Size.signature ++ message).length < Size.signature := by
    rw [List.length_append, hreserved]
    omega
  obtain ⟨u, hrun⟩ := h.signInPlace_ends hs (Bytes.zeros Size.signature ++ message) secret
  rw [SignatureScheme.signInPlaceOutcome, if_neg hlong, List.drop_left' hreserved,
    SignatureScheme.signed] at hrun
  refine ⟨u, ?_⟩
  cases hsign : c.sign? secret message with
  | none =>
      rw [hsign] at hrun
      simp only [Wire.signMessage, StateT.run_bind, hrun, ok_bind]
      rfl
  | some signature =>
      have hlength : (Bytes.zeros Size.signature ++ message).length =
          (signature.toList ++ message ++ []).length := by
        simp [hreserved]
      rw [hsign, hlength] at hrun
      simp only [Wire.signMessage, StateT.run_bind, hrun, ok_bind, List.take_length,
        List.append_nil]
      rfl

theorem signMessage_ok_iff (h : SignsBy P ready c) (hs : ready s.provider)
    (secret : SignSecretKey) (message signed : Bytes) :
    (Wire.signMessage P secret message).Ends s (.ok signed) ↔
      ∃ signature, c.sign? secret message = some signature ∧
        signed = signature.toList ++ message := by
  rw [(h.signMessage_ends hs secret message).iff_eq]
  cases c.sign? secret message with
  | none => simp
  | some signature => simp

theorem signDetached_ok_iff (h : SignsBy P ready c) (hs : ready s.provider)
    (secret : SignSecretKey) (message : Bytes) (signature : Signature) :
    (signDetached P message secret).Ends s (.ok signature) ↔
      c.sign? secret message = some signature := by
  rw [(h.signDetached_ends hs message secret).iff_eq]
  cases c.sign? secret message with
  | none => simp
  | some signature' => simp [eq_comm]

theorem makesKey_iff (h : SignsBy P ready c) (hready : ready t.provider)
    (secret : SignSecretKey) :
    MakesKey P t secret ↔ secret.publicKey = c.publicKey secret.seed := by
  have hkeys := h.signingKeysOfSeed_ends hready secret.seed
  constructor
  · rintro ⟨pk, hends⟩
    obtain ⟨-, hsecret⟩ := Prod.mk.inj (Except.ok.inj (hends.unique hkeys))
    rw [hsecret, SignSecretKey.publicKey_ofHalves, SignSecretKey.seed_ofHalves]
  · intro hown
    rw [← hown, SignSecretKey.ofHalves_seed_publicKey] at hkeys
    exact ⟨_, hkeys⟩

/-- The provider signs exactly where its scheme does, and its scheme with made keys. -/
theorem isSome_sign?_iff (h : SignsBy P ready c) (ht : ready t.provider) (hown : c.SignsOwnKeys)
    (secret : SignSecretKey) (message : Bytes) :
    (c.sign? secret message).isSome ↔ MakesKey P t secret := by
  rw [hown secret message, h.makesKey_iff ht]

theorem sign?_eq_none (h : SignsBy P ready c) (ht : ready t.provider) (hown : c.SignsOwnKeys)
    {secret : SignSecretKey} (message : Bytes) (hforeign : ¬ MakesKey P t secret) :
    c.sign? secret message = none := by
  rwa [← Option.not_isSome_iff_eq_none, h.isSome_sign?_iff ht hown]

theorem signsWithMadeKeys (h : SignsBy P ready c) (hs : ready s.provider)
    (ht : ready t.provider) (hown : c.SignsOwnKeys) : SignsWithMadeKeys P s t c.publicKey where
  makes_iff secret := h.makesKey_iff ht secret
  detached_iff secret message := by
    have hends := h.signDetached_ends hs message secret
    rw [← h.isSome_sign?_iff ht hown secret message]
    simp only [hends.iff_eq]
    cases c.sign? secret message with
    | none => simp
    | some signature => exact ⟨fun _ => rfl, fun _ => ⟨_, rfl⟩⟩
  into_iff secret message out hroom := by
    have hends := h.sign_ends hs out message secret
    rw [SignatureScheme.signOutcome_of_room hroom] at hends
    simp only [hends.iff_eq]
    rw [SignatureScheme.exists_ok_eq_signed_iff, h.isSome_sign?_iff ht hown]
  inPlace_iff secret buf hlong := by
    have hends := h.signInPlace_ends hs buf secret
    rw [SignatureScheme.signInPlaceOutcome_of_long hlong] at hends
    simp only [hends.iff_eq]
    rw [SignatureScheme.exists_ok_eq_signed_iff, h.isSome_sign?_iff ht hown]
  detached_refused secret message hforeign := by
    have hends := h.signDetached_ends hs message secret
    rwa [h.sign?_eq_none ht hown message hforeign] at hends
  into_refused secret message out hroom hforeign := by
    have hends := h.sign_ends hs out message secret
    rwa [SignatureScheme.signOutcome_of_room hroom, SignatureScheme.signed_of_refused _ _
      (h.sign?_eq_none ht hown message hforeign)] at hends
  inPlace_refused secret buf hlong hforeign := by
    have hends := h.signInPlace_ends hs buf secret
    rwa [SignatureScheme.signInPlaceOutcome_of_long hlong, SignatureScheme.signed_of_refused _ _
      (h.sign?_eq_none ht hown _ hforeign), List.append_nil] at hends
  seeded seed := by
    refine ⟨_, _, h.signingKeysOfSeed_ends ht seed, SignSecretKey.seed_ofHalves _ _,
      SignSecretKey.publicKey_ofHalves _ _, ?_⟩
    rw [h.makesKey_iff ht, SignSecretKey.publicKey_ofHalves, SignSecretKey.seed_ofHalves]

end SignsBy

end Guard

end Strongbox
