import Strongbox.Proofs.Bytes
import Strongbox.Proofs.Guard.Boxes
import Strongbox.Proofs.Guard.Signing
import Strongbox.Proofs.Guard.Verifying

/-! # Tampering

What a provider seals or signs comes back out of it. A box with another byte in its tag or
body, another byte in the key, or a signed string that its scheme does not accept comes back as
a failure with a wiped buffer. -/

namespace Strongbox

namespace Cipher

variable {c c' : Cipher} {message : Bytes}

theorem opened?_boxed : c.opened? (c.boxed message) = some message :=
  (c.opened?_eq_some_iff _ _).mpr rfl

/-- A tag that a change of the body changes lets no altered box pass. -/
theorem opened?_of_altered (htag : ∀ {a b : Bytes}, Bytes.Altered a b → c.tag a ≠ c.tag b)
    {box : Bytes} (h : Bytes.Altered (c.boxed message) box) : c.opened? box = none := by
  have hlength := (c.tag (c.mask message)).length_toList
  rw [opened?]
  apply if_neg
  rcases h.of_append with ⟨tag, htagged, rfl⟩ | ⟨body, hbody, rfl⟩
  · have htaken : tag.length = Size.tag := htagged.length_eq.trans hlength
    rw [List.take_left' htaken, List.drop_left' htaken]
    exact htagged.ne.symm
  · rw [List.take_left' hlength, List.drop_left' hlength]
    exact fun heq => htag hbody (ByteVec.ext heq)

/-- A cipher whose tag of the body is another one refuses the box. -/
theorem opened?_of_foreign (htag : c.tag (c.mask message) ≠ c'.tag (c.mask message)) :
    c'.opened? (c.boxed message) = none := by
  have hlength := (c.tag (c.mask message)).length_toList
  rw [opened?, boxed, List.take_left' hlength, List.drop_left' hlength]
  exact if_neg fun heq => htag (ByteVec.ext heq)

end Cipher

namespace Guard

variable {σ : Type}

/-! ## Boxes -/

/-- Both forms of sealing turn the message into the box, whatever stood in the padding. -/
structure SealsAs (P : Provider σ) (s : Session σ) (nonce : Nonce) (key : SymmetricKey)
    (message box : Bytes) : Prop where
  into : ∀ padding out : Bytes, padding.length = Size.padding → box.length ≤ out.length →
    (sealBox P out (padding ++ message) nonce key).Ends s ⟨.ok (), box ++ out.drop box.length⟩
  inPlace : ∀ padding : Bytes, padding.length = Size.padding →
    (sealBoxInPlace P (padding ++ message) nonce key).Ends s ⟨.ok (), box⟩

/-- Both forms of opening end with the result and leave the bytes in place of the box. -/
structure UnsealsTo (P : Provider σ) (s : Session σ) (nonce : Nonce) (key : SymmetricKey)
    (box : Bytes) (result : Except CryptoError Unit) (left : Bytes) : Prop where
  into : ∀ out : Bytes, box.length ≤ out.length →
    (unsealBox P out box nonce key).Ends s ⟨result, left ++ out.drop box.length⟩
  inPlace : (unsealBoxInPlace P box nonce key).Ends s ⟨result, left⟩

/-- The box fails to open, and nothing of it stays behind. -/
def RefusesBox (P : Provider σ) (s : Session σ) (nonce : Nonce) (key : SymmetricKey)
    (box : Bytes) : Prop :=
  UnsealsTo P s nonce key box (.error .failure) (Bytes.zeros box.length)

/-- What is sealed in one session opens in another, until a byte of its tag or body or of the
key is changed. The sixteen bytes in front may be any. -/
structure ProtectsBox (P : Provider σ) (s t : Session σ) (nonce : Nonce) (key : SymmetricKey)
    (message box : Bytes) : Prop where
  length_box : box.length = Size.padding + message.length
  seals : SealsAs P s nonce key message box
  opens : UnsealsTo P t nonce key box (.ok ()) (Bytes.zeros Size.padding ++ message)
  altered : ∀ front rest : Bytes, front.length = Size.sealedPadding →
    Bytes.Altered (box.drop Size.sealedPadding) rest → RefusesBox P t nonce key (front ++ rest)
  foreign : ∀ key' : SymmetricKey, Bytes.Altered key.toList key'.toList →
    RefusesBox P t nonce key' box

namespace SealsBy

variable {P : Provider σ} {ready : σ → Prop} {c : Nonce → SymmetricKey → Cipher}
  {s t : Session σ} {nonce : Nonce} {key : SymmetricKey} {message box : Bytes}

theorem sealsAs (h : SealsBy P ready c) (hready : ready s.provider) :
    SealsAs P s nonce key message
      (Bytes.zeros Size.sealedPadding ++ (c nonce key).boxed message) := by
  have hbox : (Bytes.zeros Size.sealedPadding ++ (c nonce key).boxed message).length =
      Size.padding + message.length := by
    simp only [List.length_append, Bytes.length_zeros, Cipher.length_boxed, Size.tag,
      Size.padding, Size.sealedPadding]
    omega
  have hpadded {padding : Bytes} (hpadding : padding.length = Size.padding) :
      (padding ++ message).length = Size.padding + message.length ∧
        ¬ (padding ++ message).length < Size.padding := by
    rw [List.length_append, hpadding]
    omega
  constructor
  · intro padding out hpadding hout
    obtain ⟨hlength, hlong⟩ := hpadded hpadding
    have hends := h.sealBox_ends hready out (padding ++ message) nonce key
    rwa [Cipher.sealOutcome, if_neg hlong, if_neg (by omega), hlength, ← hbox,
      List.drop_left' hpadding] at hends
  · intro padding hpadding
    have hends := h.sealBoxInPlace_ends hready (padding ++ message) nonce key
    rwa [Cipher.sealInPlaceOutcome, if_neg (hpadded hpadding).2, List.drop_left' hpadding] at hends

/-- Opening a box that is long enough is the cipher's outcome, in both forms. -/
theorem unsealsTo (h : SealsBy P ready c) (hready : ready s.provider)
    (hlong : Size.padding ≤ box.length) {result : Except CryptoError Unit} {left : Bytes}
    (houtcome : ∀ rest, (c nonce key).openOutcome box rest = ⟨result, left ++ rest⟩) :
    UnsealsTo P s nonce key box result left := by
  have hnotShort := Nat.not_lt.mpr hlong
  constructor
  · intro out hout
    have hends := h.unsealBox_ends hready out box nonce key
    rwa [Cipher.unsealOutcome, if_neg hnotShort, if_neg (Nat.not_lt.mpr hout), houtcome] at hends
  · have hends := h.unsealBoxInPlace_ends hready box nonce key
    rwa [Cipher.unsealInPlaceOutcome, if_neg hnotShort, houtcome, List.append_nil] at hends

theorem refusesBox (h : SealsBy P ready c) (hready : ready s.provider)
    (hlong : Size.padding ≤ box.length)
    (hrefused : (c nonce key).opened? (box.drop Size.sealedPadding) = none) :
    RefusesBox P s nonce key box := by
  apply h.unsealsTo hready hlong
  intro rest
  rw [Cipher.openOutcome, hrefused]

/-- Over a cipher whose tag shows every changed byte of the body and of the key. -/
theorem protectsBox (h : SealsBy P ready c) (hs : ready s.provider) (ht : ready t.provider)
    (hbody : ∀ {a b : Bytes}, Bytes.Altered a b → (c nonce key).tag a ≠ (c nonce key).tag b)
    (hkey : ∀ {key' : SymmetricKey} (body : Bytes), Bytes.Altered key.toList key'.toList →
      (c nonce key).tag body ≠ (c nonce key').tag body) (message : Bytes) :
    ProtectsBox P s t nonce key message
      (Bytes.zeros Size.sealedPadding ++ (c nonce key).boxed message) := by
  have hzeros := Bytes.length_zeros Size.sealedPadding
  have hdrop : (Bytes.zeros Size.sealedPadding ++ (c nonce key).boxed message).drop
      Size.sealedPadding = (c nonce key).boxed message := List.drop_left' hzeros
  have hlength : (Bytes.zeros Size.sealedPadding ++ (c nonce key).boxed message).length =
      Size.padding + message.length := by
    simp only [List.length_append, Bytes.length_zeros, Cipher.length_boxed, Size.tag,
      Size.padding, Size.sealedPadding]
    omega
  have hlong : Size.padding ≤
      (Bytes.zeros Size.sealedPadding ++ (c nonce key).boxed message).length := by omega
  refine ⟨hlength, h.sealsAs hs, ?_, ?_, ?_⟩
  · apply h.unsealsTo ht hlong
    intro rest
    rw [Cipher.openOutcome, hdrop, Cipher.opened?_boxed]
  · intro front rest hfront haltered
    rw [hdrop] at haltered
    have hrest : (front ++ rest).drop Size.sealedPadding = rest := List.drop_left' hfront
    have hsame : Size.padding ≤ (front ++ rest).length := by
      rw [List.length_append, hfront, haltered.length_eq, Cipher.length_boxed]
      simp only [Size.tag, Size.padding, Size.sealedPadding]
      omega
    apply h.refusesBox ht hsame
    rw [hrest]
    exact Cipher.opened?_of_altered hbody haltered
  · intro key' hforeign
    apply h.refusesBox ht hlong
    rw [hdrop]
    exact Cipher.opened?_of_foreign (hkey _ hforeign)

end SealsBy

/-! ## Signed messages -/

/-- The pair was made of a seed, or as the provider chose. -/
def HandsOut (P : Provider σ) (s : Session σ) (pk : SignPublicKey) (secret : SignSecretKey) :
    Prop :=
  (∃ seed, (signingKeysOfSeed P seed).Ends s (.ok (pk, secret))) ∨
    (signingKeys P).Ends s (.ok (pk, secret))

/-- The three ways to sign come to the signature. -/
structure SignsAs (P : Provider σ) (s : Session σ) (secret : SignSecretKey) (message : Bytes)
    (signature : Signature) : Prop where
  detached : (signDetached P message secret).Ends s (.ok signature)
  into : ∀ out : Bytes, message.length + Size.signature ≤ out.length →
    (sign P out message secret).Ends s ⟨.ok (message.length + Size.signature),
      signature.toList ++ message ++ out.drop (message.length + Size.signature)⟩
  inPlace : ∀ reserved : Bytes, reserved.length = Size.signature →
    (signInPlace P (reserved ++ message) secret).Ends s
      ⟨.ok (message.length + Size.signature), signature.toList ++ message⟩

/-- The signed string opens to the message. -/
def OpensSigned (P : Provider σ) (s : Session σ) (pk : SignPublicKey) (signed message : Bytes) :
    Prop :=
  ∀ out : Bytes, signed.length ≤ out.length → (openSigned P out signed pk).Ends s
    ⟨.ok message.length, message ++ out.drop message.length⟩

/-- The string fails to open, and nothing of it stays behind. -/
def RefusesSigned (P : Provider σ) (s : Session σ) (pk : SignPublicKey) (signed : Bytes) : Prop :=
  ∀ out : Bytes, signed.length ≤ out.length → (openSigned P out signed pk).Ends s
    ⟨.error .failure, Bytes.zeros signed.length ++ out.drop signed.length⟩

/-- What is signed in one session opens in another, until a byte of the signature, of the
message or of the public key is changed, or the message is replaced by a longer or a shorter
one. The lengths of these two are numbers that a machine word holds. -/
structure ProtectsMessage (P : Provider σ) (s t : Session σ) (pk : SignPublicKey)
    (secret : SignSecretKey) (message : Bytes) (signature : Signature) : Prop where
  signs : SignsAs P s secret message signature
  opens : OpensSigned P t pk (signature.toList ++ message) message
  altered : ∀ signed, Bytes.Altered (signature.toList ++ message) signed →
    RefusesSigned P t pk signed
  foreign : ∀ pk' : SignPublicKey, Bytes.Altered pk.toList pk'.toList →
    RefusesSigned P t pk' (signature.toList ++ message)
  resized : ∀ message' : Bytes, message.length < 2 ^ 64 → message'.length < 2 ^ 64 →
    message'.length ≠ message.length → RefusesSigned P t pk (signature.toList ++ message')

namespace SignsBy

variable {P : Provider σ} {ready : σ → Prop} {c : SignatureScheme} {s t : Session σ}
  {pk : SignPublicKey} {message : Bytes} {signature : Signature}

theorem signsAs (h : SignsBy P ready c) (hready : ready s.provider) {secret : SignSecretKey}
    (hsign : c.sign? secret message = some signature) : SignsAs P s secret message signature := by
  constructor
  · exact (h.signDetached_ok_iff hready secret message signature).mpr hsign
  · intro out hroom
    have hends := h.sign_ends hready out message secret
    rwa [SignatureScheme.signOutcome_of_room hroom, SignatureScheme.signed, hsign] at hends
  · intro reserved hreserved
    have hlong : Size.signature ≤ (reserved ++ message).length := by
      rw [List.length_append, hreserved]
      exact Nat.le_add_right _ _
    have hends := h.signInPlace_ends hready (reserved ++ message) secret
    rw [SignatureScheme.signInPlaceOutcome_of_long hlong, SignatureScheme.signed,
      List.drop_left' hreserved, hsign, List.length_append, hreserved,
      Nat.add_comm Size.signature] at hends
    simpa only [List.append_nil] using hends

theorem opensSigned (h : SignsBy P ready c) (hready : ready s.provider)
    (haccepts : c.accepts pk message signature = true) :
    OpensSigned P s pk (signature.toList ++ message) message := by
  obtain ⟨hlong, hopens, hmessage⟩ := c.opens_iff_exists.mpr ⟨signature, rfl, haccepts⟩
  have hlength : (signature.toList ++ message).length - Size.signature = message.length := by
    rw [← List.length_drop, hmessage]
  intro out hroom
  have hends := h.openSigned_ends hready out (signature.toList ++ message) pk
  rwa [c.openOutcome_of_opens hroom hlong hopens, hmessage, hlength] at hends

theorem refusesSigned (h : SignsBy P ready c) (hready : ready s.provider)
    (hrefuses : ¬ c.accepts pk message signature = true) :
    RefusesSigned P s pk (signature.toList ++ message) := by
  have hlong : ¬ (signature.toList ++ message).length < Size.signature := by
    rw [List.length_append, ByteVec.length_toList]
    omega
  have hopens : ¬ c.opens pk (signature.toList ++ message) = true := by
    rwa [c.opens_append]
  intro out hroom
  have hends := h.openSigned_ends hready out (signature.toList ++ message) pk
  rwa [SignatureScheme.openOutcome, if_neg (Nat.not_lt.mpr hroom), if_neg hlong,
    if_neg hopens] at hends

/-- Over a scheme that accepts one signature for each key and message, and another one once a
byte of either or the length has changed. -/
theorem protectsMessage (h : SignsBy P ready c) (hs : ready s.provider) (ht : ready t.provider)
    {secret : SignSecretKey} {mark : SignPublicKey → Bytes → Signature}
    (haccepts : ∀ {pk message signature}, c.accepts pk message signature = true →
      signature = mark pk message)
    (hsign : c.sign? secret message = some (mark pk message))
    (hown : c.accepts pk message (mark pk message) = true)
    (hmessage : ∀ {message'}, Bytes.Altered message message' → mark pk message ≠ mark pk message')
    (hkey : ∀ {pk' : SignPublicKey}, Bytes.Altered pk.toList pk'.toList →
      mark pk message ≠ mark pk' message)
    (hlength : ∀ {message' : Bytes}, message.length < 2 ^ 64 → message'.length < 2 ^ 64 →
      message'.length ≠ message.length → mark pk message ≠ mark pk message') :
    ProtectsMessage P s t pk secret message (mark pk message) where
  signs := h.signsAs hs hsign
  opens := h.opensSigned ht hown
  altered signed haltered := by
    rcases haltered.of_append with ⟨front, hfront, rfl⟩ | ⟨message', haltered', rfl⟩
    · have hlong : front.length = Size.signature :=
        hfront.length_eq.trans (mark pk message).length_toList
      have hrefuses : ¬ c.accepts pk message ⟨⟨front, hlong⟩⟩ = true := by
        intro hfronted
        exact hfront.ne (congrArg (fun signature : Signature => signature.toList)
          (haccepts hfronted)).symm
      exact h.refusesSigned ht hrefuses
    · exact h.refusesSigned ht fun hother => hmessage haltered' (haccepts hother)
  foreign _ hforeign := h.refusesSigned ht fun hother => hkey hforeign (haccepts hother)
  resized _ hword hword' hresized := h.refusesSigned ht fun hother =>
    hlength hword hword' hresized (haccepts hother)

end SignsBy

end Guard

end Strongbox
