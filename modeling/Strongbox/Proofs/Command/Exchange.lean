import Strongbox.Proofs.Command.Exit
import Strongbox.Proofs.Command.Vouched
import Strongbox.Proofs.Provider.Interchange

/-! # Sealed files between two parties

Two parties whose key files agree on a key exchange boxes on the command line. What one seals
the other opens, and nothing else opens. -/

namespace Strongbox

variable {σ : Type}

/-! ## Conversions -/

namespace Command

/-- What a party needs for its turn: both key files, a nonce, an input to read and an output
to write. -/
structure BoxReady (w : World σ) (args : BoxArgs) (secret : BoxSecretKey) (peer : BoxPublicKey)
    (nonce : Nonce) (data : Bytes) : Prop where
  secret : KeyFile w.files args.secret secret.toList
  peer : KeyFile w.files args.peer peer.toList
  nonce : Hex.Spells args.nonce nonce.toList
  input : w.contents args.input.source = .ok data
  output : ∀ p, args.output.source = .file p → ∃ loc, w.files.Admits p loc

variable {P : Provider σ} {args : BoxArgs} {secret : BoxSecretKey} {peer : BoxPublicKey}
  {nonce : Nonce} {key : SymmetricKey} {data : Bytes} {w : World σ}
  {convert : SymmetricKey → Nonce → Bytes → Action σ (Except Trouble Bytes)}

theorem contents_after (w : World σ) (s : Session σ) (source : Source) :
    (w.after s).contents source = w.contents source := by
  cases source <;> rfl

/-- A party that is ready comes as far as the conversion. -/
theorem BoxReady.exec_convertBox (h : BoxReady w args secret peer nonce data)
    (hagree : ∀ s, (Guard.agree P peer secret).Ends s (.ok key))
    {converted : Except Trouble Bytes} (hconvert : ∀ s, (convert key nonce data).Ends s converted) :
    ∃ w₁, w.Withheld w₁ ∧ exec (convertBox P args convert) w =
      match converted with
      | .ok bytes => exec (writeOutput args.output bytes) w₁
      | .error trouble => .ok (.error trouble, w₁) := by
  obtain ⟨s, hs⟩ := hagree w.session
  let agreed := w.after s
  let ready := agreed.drained args.input.source
  obtain ⟨t, ht⟩ := hconvert ready.session
  have hnonce : exec (liftM (KeyText.decode Size.nonce args.nonce "nonce") :
      ExceptT Trouble (Console σ) _) w = .ok (.ok nonce.toByteVec, w) := by
    rw [exec_liftM, KeyText.decode_ok_iff.mpr h.nonce]
  have hkey : exec (agreedKey P args) w = .ok (.ok key, agreed) := by
    rw [agreedKey, exec_bind_of_ok (exec_loadKey_of_keyFile h.secret),
      exec_bind_of_ok (exec_loadKey_of_keyFile h.peer), exec_attempt, hs]
    rfl
  have hcontents : agreed.contents args.input.source = .ok data := by
    rw [contents_after, h.input]
  refine ⟨ready.after t, ?_, ?_⟩
  · exact (World.Withheld.after w s).trans
      ((World.Withheld.drained agreed args.input.source).trans (.after ready t))
  · rw [convertBox, exec_bind_of_ok hnonce, exec_bind_of_ok hkey,
      exec_bind_of_ok (exec_readInput_of_contents hcontents)]
    cases converted with
    | ok bytes =>
        apply exec_bind_of_ok
        rw [exec_attempt, ht]
        rfl
    | error trouble =>
        apply exec_bind_of_error
        rw [exec_attempt, ht]
        rfl

theorem BoxReady.after (h : BoxReady w args secret peer nonce data) (s : Session σ) :
    BoxReady (w.after s) args secret peer nonce data :=
  ⟨h.secret, h.peer, h.nonce, by rw [contents_after, h.input], h.output⟩

/-- The command is a conversion, once it has named its provider. -/
def Converts (P : Provider σ) (c : Command) (args : BoxArgs)
    (convert : SymmetricKey → Nonce → Bytes → Action σ (Except Trouble Bytes)) : Prop :=
  ∀ w : World σ, exec (Command.run P c) w =
    exec (convertBox P args convert) (w.after ⟨w.provider, [.providerSelected P.name]⟩)

theorem seal_converts (P : Provider σ) (args : BoxArgs) :
    Converts P (.seal args) args (Wire.sealMessage P) :=
  fun w => exec_bind_of_ok (exec_emit _ w)

theorem unseal_converts (P : Provider σ) (args : BoxArgs) :
    Converts P (.unseal args) args (Wire.unsealMessage P) :=
  fun w => exec_bind_of_ok (exec_emit _ w)

/-- A conversion that gives bytes delivers them. -/
theorem BoxReady.yields {c : Command} (h : BoxReady w args secret peer nonce data)
    (hconverts : Converts P c args convert)
    (hagree : ∀ s, (Guard.agree P peer secret).Ends s (.ok key)) {bytes : Bytes}
    (hconvert : ∀ s, (convert key nonce data).Ends s (.ok bytes)) :
    Yields P c args.output w bytes := by
  have hready := h.after ⟨w.provider, [.providerSelected P.name]⟩
  obtain ⟨w₁, hw₁, hexec⟩ := hready.exec_convertBox hagree hconvert
  have houtput (p : Path) (hp : args.output.source = .file p) : ∃ loc, w₁.files.Admits p loc := by
    rw [hw₁.files]
    exact h.output p hp
  obtain ⟨w₂, hwrite, hdelivered⟩ := exec_writeOutput_delivers houtput bytes
  apply Yields.of_exec ((hconverts w).trans (hexec.trans hwrite))
  exact hdelivered.of_withheld ((World.Withheld.after w _).trans hw₁)

/-- A conversion that gives trouble fails. -/
theorem BoxReady.fails {c : Command} (h : BoxReady w args secret peer nonce data)
    (hconverts : Converts P c args convert)
    (hagree : ∀ s, (Guard.agree P peer secret).Ends s (.ok key)) {trouble : Trouble}
    (hconvert : ∀ s, (convert key nonce data).Ends s (.error trouble)) : Fails P c w := by
  have hready := h.after ⟨w.provider, [.providerSelected P.name]⟩
  obtain ⟨w₁, hw₁, hexec⟩ := hready.exec_convertBox hagree hconvert
  exact Fails.of_exec ((hconverts w).trans hexec) ((World.Withheld.after w _).trans hw₁)

/-! ## Every provider -/

/-- The provider agrees on keys by a function, and seals by a cipher. -/
structure BoxesBy (P : Provider σ) (agreed? : BoxPublicKey → BoxSecretKey → Option SymmetricKey)
    (c : Nonce → SymmetricKey → Cipher) : Prop where
  agrees : ∀ {peer : BoxPublicKey} {secret : BoxSecretKey} {key : SymmetricKey},
    agreed? peer secret = some key → ∀ s, (Guard.agree P peer secret).Ends s (.ok key)
  seals : Guard.SealsBy P (fun _ => True) c

section BoxesBy

variable {agreed? : BoxPublicKey → BoxSecretKey → Option SymmetricKey}
  {c : Nonce → SymmetricKey → Cipher} {message box : Bytes}

theorem BoxesBy.seal_yields (hP : BoxesBy P agreed? c)
    (h : BoxReady w args secret peer nonce message) (hkey : agreed? peer secret = some key) :
    Yields P (.seal args) args.output w ((c nonce key).boxed message) :=
  h.yields (seal_converts P args) (hP.agrees hkey) fun _ =>
    hP.seals.sealMessage_ends trivial nonce key message

theorem BoxesBy.seal_yields_iff (hP : BoxesBy P agreed? c)
    (h : BoxReady w args secret peer nonce message) (hkey : agreed? peer secret = some key) :
    Yields P (.seal args) args.output w box ↔ (c nonce key).boxed message = box := by
  have hyields := hP.seal_yields h hkey
  constructor
  · exact hyields.unique
  · rintro rfl
    exact hyields

theorem BoxesBy.unseal_yields (hP : BoxesBy P agreed? c)
    (h : BoxReady w args secret peer nonce box) (hkey : agreed? peer secret = some key)
    (hopened : (c nonce key).opened? box = some message) :
    Yields P (.unseal args) args.output w message := by
  have hlong : ¬ box.length < Size.tag := by
    rw [(c nonce key).length_of_opened? hopened]
    omega
  refine h.yields (unseal_converts P args) (hP.agrees hkey) fun s => ?_
  have hends : (Wire.unsealMessage P key nonce box).Ends s _ :=
    hP.seals.unsealMessage_ends trivial nonce key box
  rwa [if_neg hlong, hopened] at hends

/-- A box that opens to nothing is refused, and one that is too short is one of these. -/
theorem BoxesBy.unseal_fails (hP : BoxesBy P agreed? c)
    (h : BoxReady w args secret peer nonce box) (hkey : agreed? peer secret = some key)
    (hopened : (c nonce key).opened? box = none) : Fails P (.unseal args) w := by
  have hrefused : ∃ trouble, ∀ s,
      (Wire.unsealMessage P key nonce box).Ends s (.error trouble) := by
    by_cases hshort : box.length < Size.tag
    · refine ⟨.boxTooShort box.length, fun s => ?_⟩
      have hends : (Wire.unsealMessage P key nonce box).Ends s _ :=
        hP.seals.unsealMessage_ends trivial nonce key box
      rwa [if_pos hshort] at hends
    · refine ⟨.unsealing .failure, fun s => ?_⟩
      have hends : (Wire.unsealMessage P key nonce box).Ends s _ :=
        hP.seals.unsealMessage_ends trivial nonce key box
      rwa [if_neg hshort, hopened] at hends
  obtain ⟨trouble, hrefused⟩ := hrefused
  exact h.fails (unseal_converts P args) (hP.agrees hkey) hrefused

/-- Unsealing gives a message exactly if the box is what sealing the message gives. -/
theorem BoxesBy.unseal_yields_iff (hP : BoxesBy P agreed? c)
    (h : BoxReady w args secret peer nonce box) (hkey : agreed? peer secret = some key) :
    Yields P (.unseal args) args.output w message ↔ (c nonce key).boxed message = box := by
  rw [← (c nonce key).opened?_eq_some_iff]
  cases hopened : (c nonce key).opened? box with
  | none =>
      have hfails := hP.unseal_fails h hkey hopened
      exact ⟨fun hyields => absurd hyields hfails.not_yields, nofun⟩
  | some message' =>
      have hyields := hP.unseal_yields h hkey hopened
      constructor
      · intro hyields'
        rw [hyields.unique hyields']
      · rintro ⟨⟩
        exact hyields

end BoxesBy

/-! ## Two parties -/

/-- Two key files. -/
def keyFiles (secret peer : Bytes) : Tree :=
  (({} : Tree).put ["secret"] (.file secret 0o600)).put ["peer"] (.file peer 0o644)

theorem keyFiles_read (secret peer : Bytes) :
    (keyFiles secret peer).read ⟨"secret"⟩ = .ok secret ∧
      (keyFiles secret peer).read ⟨"peer"⟩ = .ok peer := ⟨rfl, rfl⟩

/-- A world with both key files, and the data as its input. -/
def supplied (provider : σ) (secret : BoxSecretKey) (peer : BoxPublicKey) (data : Bytes) :
    World σ where
  provider
  files := keyFiles (Text.encode (Hex.encode secret.toList)) (Text.encode (Hex.encode peer.toList))
  input := data

theorem source_dash : Path.source ⟨"-"⟩ = .standard := by
  have hstandard : Path.isStandard ⟨"-"⟩ = true := by decide
  rw [Path.source, hstandard]
  rfl

/-- The two key files, with input and output standard. -/
def standardArgs (nonce : Nonce) : BoxArgs :=
  ⟨⟨"secret"⟩, ⟨"peer"⟩, Hex.encode nonce.toList, ⟨"-"⟩, ⟨"-"⟩⟩

theorem supplied_boxReady (provider : σ) (secret : BoxSecretKey) (peer : BoxPublicKey)
    (nonce : Nonce) (data : Bytes) :
    BoxReady (supplied provider secret peer data) (standardArgs nonce) secret peer nonce data where
  secret := ⟨_, (keyFiles_read _ _).1, Hex.spells_encode _⟩
  peer := ⟨_, (keyFiles_read _ _).2, Hex.spells_encode _⟩
  nonce := Hex.spells_encode _
  input := by
    rw [standardArgs, source_dash]
    rfl
  output p h := by
    rw [standardArgs, source_dash] at h
    cases h

/-- What two parties can count on, of whom the sender seals with one provider and the
receiver unseals with another, under one nonce. -/
structure SealedExchange (P Q : Provider σ) (senderSecret : BoxSecretKey)
    (receiverPublic : BoxPublicKey) (receiverSecret : BoxSecretKey)
    (senderPublic : BoxPublicKey) (nonce : Nonce) : Prop where
  /-- Sealing delivers one box, longer than the message by the tag. -/
  seals : ∀ {w args message}, BoxReady w args senderSecret receiverPublic nonce message →
    ∃ box, Yields P (.seal args) args.output w box ∧ box.length = message.length + Size.tag
  /-- The receiver gets a message exactly from what sealing it delivers. -/
  opens_iff : ∀ {w args message w' args' box},
    BoxReady w args senderSecret receiverPublic nonce message →
    BoxReady w' args' receiverSecret senderPublic nonce box →
    (Yields Q (.unseal args') args'.output w' message ↔ Yields P (.seal args) args.output w box)
  /-- What no sealing delivers is refused. -/
  refuses : ∀ {w' args' box}, BoxReady w' args' receiverSecret senderPublic nonce box →
    (∀ {w args message}, BoxReady w args senderSecret receiverPublic nonce message →
      ¬ Yields P (.seal args) args.output w box) → Fails Q (.unseal args') w'
  refuses_short : ∀ {w' args' box}, BoxReady w' args' receiverSecret senderPublic nonce box →
    box.length < Size.tag → Fails Q (.unseal args') w'

theorem BoxesBy.exchange {Q : Provider σ}
    {agreed? : BoxPublicKey → BoxSecretKey → Option SymmetricKey}
    {c : Nonce → SymmetricKey → Cipher} (hP : BoxesBy P agreed? c) (hQ : BoxesBy Q agreed? c)
    {senderSecret receiverSecret : BoxSecretKey} {receiverPublic senderPublic : BoxPublicKey}
    (hsender : agreed? receiverPublic senderSecret = some key)
    (hreceiver : agreed? senderPublic receiverSecret = some key) (nonce : Nonce) :
    SealedExchange P Q senderSecret receiverPublic receiverSecret senderPublic nonce := by
  have hshort {box : Bytes} (h : box.length < Size.tag) : (c nonce key).opened? box = none := by
    rw [Option.eq_none_iff_forall_ne_some]
    intro message hopened
    rw [(c nonce key).length_of_opened? hopened] at h
    omega
  refine ⟨?_, ?_, ?_, ?_⟩
  · intro w args message hready
    refine ⟨_, hP.seal_yields hready hsender, ?_⟩
    rw [Cipher.length_boxed, Nat.add_comm]
  · intro w args message w' args' box hready hready'
    rw [hQ.unseal_yields_iff hready' hreceiver, hP.seal_yields_iff hready hsender]
  · intro w' args' box hready' hunsealed
    apply hQ.unseal_fails hready' hreceiver
    rw [Option.eq_none_iff_forall_ne_some]
    intro message hopened
    -- A box that opens is one that the sender can make, at a desk of its own.
    have hready := supplied_boxReady w'.provider senderSecret receiverPublic nonce message
    apply hunsealed hready
    rw [hP.seal_yields_iff hready hsender]
    exact ((c nonce key).opened?_eq_some_iff box message).mp hopened
  · intro w' args' box hready' hlength
    exact hQ.unseal_fails hready' hreceiver (hshort hlength)

end Command

/-! ## The real providers -/

/-- The primitives behind boxes are the same. -/
structure Primitives.SameBoxes (p q : Primitives) : Prop where
  agree : p.agree = q.agree
  deriveKey : p.deriveKey = q.deriveKey
  keystreamBlock : p.keystreamBlock = q.keystreamBlock
  authenticate : p.authenticate = q.authenticate

/-- The providers over the primitives of two libraries. -/
def ProviderChoice.ofPrimitives (p q : Primitives) : ProviderChoice → Provider Entropy
  | .sodium => Joined.provider p
  | .dalek => Split.provider q

/-- The primitives that the chosen provider is made of. -/
def ProviderChoice.primitives (p q : Primitives) : ProviderChoice → Primitives
  | .sodium => p
  | .dalek => q

/-- The providers of the program are two such. -/
theorem ProviderChoice.provider_eq_ofPrimitives :
    ProviderChoice.provider = ofPrimitives (.standard .reduced) (.standard .any) := by
  funext choice
  cases choice <;> rfl

theorem Primitives.standard_sameBoxes : (standard .reduced).SameBoxes (standard .any) :=
  ⟨rfl, rfl, rfl, rfl⟩

theorem Primitives.SameBoxes.agreedKey?_cipher {p q : Primitives} (h : p.SameBoxes q) :
    q.agreedKey? = p.agreedKey? ∧ q.cipher = p.cipher := by
  obtain ⟨agree, deriveKey, keystreamBlock, authenticate⟩ := p
  obtain ⟨agree', deriveKey', keystreamBlock', authenticate'⟩ := q
  obtain ⟨hagree, hderive, hkeystream, hauthenticate⟩ := h
  simp only at hagree hderive hkeystream hauthenticate
  subst hagree hderive hkeystream hauthenticate
  exact ⟨rfl, rfl⟩

theorem Joined.boxesBy (p : Primitives) :
    Command.BoxesBy (Joined.provider p) p.agreedKey? p.cipher where
  agrees {peer secret key} hkey s := by
    have hcall : ((Joined.provider p).agree peer secret).run s.provider =
        .ok (.ok key, s.provider) := by
      change (Joined.agree p peer secret).run s.provider = _
      rw [Joined.agree, hkey]
      rfl
    rw [Action.Ends, Guard.agree_run, hcall]
    exact ⟨_, rfl⟩
  seals := Joined.sealsBy p

theorem Split.boxesBy (p : Primitives) :
    Command.BoxesBy (Split.provider p) p.agreedKey? p.cipher where
  agrees {peer secret key} hkey s := by
    have hcall : ((Split.provider p).agree peer secret).run s.provider =
        .ok (.ok key, s.provider) := by
      change (Split.agree p peer secret).run s.provider = _
      rw [Split.agree, hkey]
      rfl
    rw [Action.Ends, Guard.agree_run, hcall]
    exact ⟨_, rfl⟩
  seals := Split.sealsBy p

theorem ProviderChoice.boxesBy_ofPrimitives {p q : Primitives} (h : p.SameBoxes q)
    (choice : ProviderChoice) :
    Command.BoxesBy (choice.ofPrimitives p q) p.agreedKey? p.cipher := by
  obtain ⟨hagreed, hcipher⟩ := h.agreedKey?_cipher
  cases choice with
  | sodium => exact Joined.boxesBy p
  | dalek =>
      rw [← hagreed, ← hcipher]
      exact Split.boxesBy q

theorem ProviderChoice.signsBy_ofPrimitives (p q : Primitives) (choice : ProviderChoice) :
    Guard.SignsBy (choice.ofPrimitives p q) (fun _ => True) (choice.primitives p q).scheme := by
  cases choice with
  | sodium => exact Joined.signsBy p
  | dalek => exact Split.signsBy q

/-- If the secret key of each party agrees with the public key of the other on one key,
then the receiver opens what the sender seals and nothing else, whichever providers the two
choose. -/
theorem sealed_files_exchanged {p q : Primitives} (h : p.SameBoxes q)
    (sending receiving : ProviderChoice) {senderSecret receiverSecret : BoxSecretKey}
    {receiverPublic senderPublic : BoxPublicKey} {key : SymmetricKey}
    (hsender : p.agreedKey? receiverPublic senderSecret = some key)
    (hreceiver : p.agreedKey? senderPublic receiverSecret = some key) (nonce : Nonce) :
    Command.SealedExchange (sending.ofPrimitives p q) (receiving.ofPrimitives p q) senderSecret
      receiverPublic receiverSecret senderPublic nonce :=
  (sending.boxesBy_ofPrimitives h).exchange (receiving.boxesBy_ofPrimitives h) hsender hreceiver
    nonce

def senderKeys : BoxPublicKey × BoxSecretKey :=
  (⟨⟨[164, 224, 146, 146, 182, 81, 194, 120, 185, 119, 44, 86, 159, 95, 169, 187, 19, 217, 6,
    180, 106, 182, 140, 157, 249, 220, 43, 68, 9, 248, 162, 9], rfl⟩⟩, ⟨.replicate 32 1⟩)

def receiverKeys : BoxPublicKey × BoxSecretKey :=
  (⟨⟨[206, 141, 58, 209, 204, 182, 51, 236, 123, 112, 193, 120, 20, 165, 199, 110, 205, 2, 150,
    133, 5, 13, 52, 71, 69, 186, 5, 135, 14, 88, 125, 89], rfl⟩⟩, ⟨.replicate 32 2⟩)

def commonKey : SymmetricKey :=
  ⟨⟨[24, 169, 147, 32, 243, 72, 143, 161, 138, 4, 35, 151, 21, 216, 238, 115, 128, 101, 230, 92,
    61, 75, 40, 152, 82, 45, 108, 61, 78, 173, 88, 140], rfl⟩⟩

open Command in
/-- A message is sealed with one provider and opened with the other. -/
theorem two_bytes_exchanged :
    ∃ box : Bytes, box.length = 18 ∧
      Yields ProviderChoice.sodium.provider (.seal (standardArgs ⟨.zeros 24⟩)) ⟨"-"⟩
        (supplied ⟨fun _ => 0, 0⟩ senderKeys.2 receiverKeys.1 [1, 2]) box ∧
      Yields ProviderChoice.dalek.provider (.unseal (standardArgs ⟨.zeros 24⟩)) ⟨"-"⟩
        (supplied ⟨fun _ => 0, 0⟩ receiverKeys.2 senderKeys.1 box) [1, 2] := by
  rw [ProviderChoice.provider_eq_ofPrimitives]
  have hexchange := sealed_files_exchanged Primitives.standard_sameBoxes .sodium .dalek
    (show Primitives.agreedKey? _ receiverKeys.1 senderKeys.2 = some commonKey by decide +kernel)
    (show Primitives.agreedKey? _ senderKeys.1 receiverKeys.2 = some commonKey by decide +kernel)
    ⟨.zeros 24⟩
  let still : Entropy := ⟨fun _ => 0, 0⟩
  have hready := supplied_boxReady still senderKeys.2 receiverKeys.1 ⟨.zeros 24⟩ [1, 2]
  obtain ⟨box, hsealed, hlength⟩ := hexchange.seals hready
  have hready' := supplied_boxReady still receiverKeys.2 senderKeys.1 ⟨.zeros 24⟩ box
  exact ⟨box, hlength, hsealed, (hexchange.opens_iff hready hready').mpr hsealed⟩

end Strongbox
