import Strongbox.Proofs.Command.MadePairs

/-! # Signed files between two parties

Signing and verifying on the command line, over a provider that follows a scheme: when the two
commands end well and what they have then written, whatever the files. A message that is signed
with keys made of a seed is accepted on its way through files. -/

namespace Strongbox

variable {σ : Type}

namespace Command

/-! ## Outputs -/

/-- What goes to the outlet can be written. -/
def Writable (t : Tree) (outlet : Option Source) : Prop :=
  ∀ p, outlet = some (.file p) → ∃ loc, t.Admits p loc

/-- The output can be written, and is none of these inputs. -/
structure Spares (t : Tree) (output : Path) (inputs : List Path) : Prop where
  writable : Writable t (some output.source)
  apart : ∀ p loc, output.source = .file p → t.locate p = .ok loc →
    ∀ input ∈ inputs, t.locate input ≠ .ok loc

section Released

variable {w w' : World σ} {outlet : Option Source} {output input : Path} {bytes contents : Bytes}

theorem Released.writable (h : Released outlet bytes w w') : Writable w.files outlet := by
  rintro p rfl
  obtain ⟨loc, hadmits, -⟩ := Tree.write_ok_iff.mp h.1
  exact ⟨loc, hadmits⟩

theorem Released.read_output (h : Released (some output.source) bytes w w')
    (hfile : output.source = .file output) : w'.files.read output = .ok bytes := by
  rw [hfile] at h
  obtain ⟨loc, hadmits, hfiles⟩ := Tree.write_ok_iff.mp h.1
  rw [hfiles]
  exact Tree.read_put_file hadmits _ _

/-- An input that the output spares is read as before. -/
theorem Released.read_input {inputs : List Path} (h : Released (some output.source) bytes w w')
    (hspares : Spares w.files output inputs) (hinput : input ∈ inputs)
    (hread : w.files.read input = .ok contents) : w'.files.read input = .ok contents := by
  cases hsource : output.source with
  | standard =>
      rw [hsource] at h
      rwa [h.1]
  | file p =>
      rw [hsource] at h
      obtain ⟨loc, hadmits, hfiles⟩ := Tree.write_ok_iff.mp h.1
      rw [hfiles]
      exact hadmits.read_put (hspares.apart p loc hsource hadmits.located input hinput) _ hread

/-- What the output spared is read later as it was read before. -/
theorem Released.read_later {t t' : Tree} {inputs : List Path}
    (h : Released (some output.source) bytes w w') (hspares : Spares w.files output inputs)
    (hinput : input ∈ inputs) (hbefore : t.Retains w.files) (hafter : w'.files.Retains t')
    (hread : t.read input = .ok contents) : t'.read input = .ok contents :=
  hafter.read (h.read_input hspares hinput (hbefore.read hread))

theorem exec_writeOutput_of_writable {path : Path} (h : Writable w.files (some path.source))
    (bytes : Bytes) :
    ∃ w', exec (writeOutput path bytes) w = .ok (.ok (), w') := by
  have hadmits (p : Path) (hp : path.source = .file p) : ∃ loc, w.files.Admits p loc :=
    h p (congrArg some hp)
  obtain ⟨w', hwrite, -⟩ := exec_writeOutput_delivers hadmits bytes
  exact ⟨w', hwrite⟩

end Released

/-! ## Commands with one answer -/

/-- The command line ends with code zero exactly where there is something that the command may
release and its outlet can be written. Then it has released that. -/
structure Answers (P : Provider σ) (c : Command) (Allowed : World σ → Bytes → Prop) : Prop where
  exits_iff : ∀ w : World σ, (∃ w', (Command.exit P c : Console σ Nat).run w = .ok (0, w')) ↔
    (∃ bytes, Allowed w bytes) ∧ Writable w.files c.outlet
  released : ∀ {w w' : World σ}, (Command.exit P c : Console σ Nat).run w = .ok (0, w') →
    ∃ bytes, Allowed w bytes ∧ Released c.outlet bytes w w'

section Answers

variable {P : Provider σ} {c : Command} {Allowed : World σ → Bytes → Prop} {w : World σ}

/-- Nothing else is released than what a guarded operation vouches for, so it is enough that
this is allowed, and that the command comes to its end where something is. -/
theorem Answers.of_vouched
    (hc : ∀ kind outDir name seed force, c ≠ .keygen kind outDir name seed force)
    (hallowed : ∀ w bytes, c.Vouched P w bytes → Allowed w bytes)
    (hends : ∀ w bytes, Allowed w bytes → Writable w.files c.outlet →
      ∃ w', exec (Command.run P c) w = .ok (.ok (), w')) : Answers P c Allowed := by
  have hreleased {w w' : World σ}
      (hrun : (Command.exit P c : Console σ Nat).run w = .ok (0, w')) :
      ∃ bytes, Allowed w bytes ∧ Released c.outlet bytes w w' := by
    have hrelease := (run_releasing P c w hc).outcome.of_ok (exit_zero_iff.mp hrun)
    obtain ⟨bytes, hvouched, hreleased⟩ := hrelease.released rfl
    exact ⟨bytes, hallowed w bytes hvouched, hreleased⟩
  refine ⟨fun w => ⟨?_, ?_⟩, hreleased⟩
  · rintro ⟨w', hrun⟩
    obtain ⟨bytes, hbytes, hwritten⟩ := hreleased hrun
    exact ⟨⟨bytes, hbytes⟩, hwritten.writable⟩
  · rintro ⟨⟨bytes, hbytes⟩, hwritable⟩
    obtain ⟨w', hrun⟩ := hends w bytes hbytes hwritable
    exact ⟨w', exit_run_of_ok hrun⟩

/-- Where only one answer is allowed, it is released. -/
theorem Answers.run (h : Answers P c Allowed) {bytes : Bytes} (hbytes : Allowed w bytes)
    (hunique : ∀ bytes', Allowed w bytes' → bytes' = bytes)
    (hwritable : Writable w.files c.outlet) :
    ∃ w', (Command.exit P c : Console σ Nat).run w = .ok (0, w') ∧
      Released c.outlet bytes w w' := by
  obtain ⟨w', hrun⟩ := (h.exits_iff w).mpr ⟨⟨bytes, hbytes⟩, hwritable⟩
  obtain ⟨bytes', hbytes', hreleased⟩ := h.released hrun
  rw [hunique bytes' hbytes'] at hreleased
  exact ⟨w', hrun, hreleased⟩

end Answers

/-! ## Signing -/

/-- The input signed with the key of a file: the signature in front of the message, or its
digits alone. -/
def SignedBy (c : SignatureScheme) (secret input : Path) (detached : Bool) (w : World σ)
    (bytes : Bytes) : Prop :=
  ∃ (sk : SignSecretKey) (message : Bytes) (signature : Signature),
    KeyFile w.files secret sk.toList ∧ w.contents input.source = .ok message ∧
      c.sign? sk message = some signature ∧
      bytes = if detached then KeyText.encode signature.toList else signature.toList ++ message

section Signing

variable {P : Provider σ} {c : SignatureScheme} {secret input output : Path} {detached : Bool}
  {w : World σ} {bytes bytes' : Bytes}

theorem SignedBy.unique (h : SignedBy c secret input detached w bytes)
    (h' : SignedBy c secret input detached w bytes') : bytes = bytes' := by
  obtain ⟨⟨sk⟩, message, signature, hsk, hinput, hsign, rfl⟩ := h
  obtain ⟨⟨sk'⟩, message', signature', hsk', hinput', hsign', rfl⟩ := h'
  obtain rfl := KeyFile.unique hsk hsk'
  obtain rfl := Except.ok.inj (hinput.symm.trans hinput')
  obtain rfl := Option.some.inj (hsign.symm.trans hsign')
  rfl

theorem signedBy_of_signed (h : Guard.SignsBy P (fun _ => True) c)
    (hsigned : Signed P secret input detached w bytes) :
    SignedBy c secret input detached w bytes := by
  obtain ⟨sk, message, s, hsk, hinput, hends⟩ := hsigned
  rw [keyAt_ok_iff] at hsk
  cases detached with
  | true =>
      obtain ⟨signature, hends, rfl⟩ := hends
      rw [h.signDetached_ok_iff trivial] at hends
      exact ⟨⟨sk⟩, message, signature, hsk, hinput, hends, rfl⟩
  | false =>
      rw [if_neg Bool.false_ne_true, h.signMessage_ok_iff trivial] at hends
      obtain ⟨signature, hsign, rfl⟩ := hends
      exact ⟨⟨sk⟩, message, signature, hsk, hinput, hsign, rfl⟩

theorem exec_signInput (h : Guard.SignsBy P (fun _ => True) c)
    (hsigned : SignedBy c secret input detached w bytes)
    (hwritable : Writable w.files (some output.source)) :
    ∃ w', exec (signInput P secret input output detached) w = .ok (.ok (), w') := by
  obtain ⟨⟨sk⟩, message, signature, hsk, hinput, hsign, -⟩ := hsigned
  have hdrained := World.Withheld.drained w input.source
  rw [signInput, exec_bind_of_ok (exec_loadKey_of_keyFile hsk),
    exec_bind_of_ok (exec_readInput_of_contents hinput)]
  cases detached with
  | true =>
      have hends : (Guard.signDetached P message ⟨sk⟩).Ends (w.drained input.source).session
          (.ok signature) := (h.signDetached_ok_iff trivial ⟨sk⟩ message signature).mpr hsign
      obtain ⟨w₁, hw₁, hattempt⟩ := exec_attempt_of_ends hends .signing
      simp only [ite_true]
      rw [exec_bind_of_ok hattempt]
      apply exec_writeOutput_of_writable
      rwa [hw₁.files, hdrained.files]
  | false =>
      have hends : (Wire.signMessage P ⟨sk⟩ message).Ends (w.drained input.source).session
          (.ok (signature.toList ++ message)) :=
        (h.signMessage_ok_iff trivial ⟨sk⟩ message _).mpr ⟨signature, hsign, rfl⟩
      obtain ⟨w₁, hw₁, hattempt⟩ := exec_attempt_of_ends hends id
      simp only [Bool.false_eq_true, ite_false]
      rw [exec_bind_of_ok hattempt]
      apply exec_writeOutput_of_writable
      rwa [hw₁.files, hdrained.files]

theorem sign_answers (h : Guard.SignsBy P (fun _ => True) c) (secret input output : Path)
    (detached : Bool) :
    Answers P (.sign secret input output detached) (SignedBy c secret input detached) := by
  refine Answers.of_vouched nofun ?_ ?_
  · intro w bytes
    exact signedBy_of_signed h
  · intro w bytes hsigned hwritable
    unfold Command.run
    rw [exec_bind_of_ok (exec_emit _ w)]
    exact exec_signInput h hsigned hwritable

end Signing

/-! ## Verifying -/

/-- What follows the signature in the input, if the key of a file accepts the one for the
other. -/
def OpenedBy (c : SignatureScheme) (pk input : Path) (w : World σ) (bytes : Bytes) : Prop :=
  ∃ (key : SignPublicKey) (data : Bytes) (signature : Signature),
    KeyFile w.files pk key.toList ∧ w.contents input.source = .ok data ∧
      Size.signature ≤ data.length ∧ signature.toList = data.take Size.signature ∧
      bytes = data.drop Size.signature ∧ c.accepts key bytes signature = true

/-- The key of a file accepts the signature of another file for the input. -/
def AcceptedBy (c : SignatureScheme) (pk input signature : Path) (w : World σ) : Prop :=
  ∃ (key : SignPublicKey) (data : Bytes) (value : Signature),
    KeyFile w.files pk key.toList ∧ w.contents input.source = .ok data ∧
      KeyFile w.files signature value.toList ∧ c.accepts key data value = true

section Verifying

variable {P : Provider σ} {c : SignatureScheme} {pk input signature : Path} {output : Option Path}
  {w : World σ} {bytes bytes' : Bytes}

theorem OpenedBy.unique (h : OpenedBy c pk input w bytes) (h' : OpenedBy c pk input w bytes') :
    bytes = bytes' := by
  obtain ⟨key, data, signature, -, hinput, -, -, rfl, -⟩ := h
  obtain ⟨key', data', signature', -, hinput', -, -, rfl, -⟩ := h'
  obtain rfl := Except.ok.inj (hinput.symm.trans hinput')
  rfl

/-- The input is a signature in front of what it opens to. -/
theorem openedBy_iff :
    OpenedBy c pk input w bytes ↔ ∃ (key : SignPublicKey) (signature : Signature),
      KeyFile w.files pk key.toList ∧
        w.contents input.source = .ok (signature.toList ++ bytes) ∧
        c.accepts key bytes signature = true := by
  constructor
  · rintro ⟨key, data, signature, hkey, hinput, -, hfront, rfl, haccepts⟩
    refine ⟨key, signature, hkey, ?_, haccepts⟩
    rw [hinput, hfront, List.take_append_drop]
  · rintro ⟨key, signature, hkey, hinput, haccepts⟩
    have hlength := signature.length_toList
    refine ⟨key, _, signature, hkey, hinput, ?_, ?_, ?_, haccepts⟩
    · rw [List.length_append, hlength]
      exact Nat.le_add_right _ _
    · rw [List.take_left' hlength]
    · rw [List.drop_left' hlength]

theorem openedBy_of_verified (h : Guard.SignsBy P (fun _ => True) c)
    (hverified : Verified P pk input none w bytes) : OpenedBy c pk input w bytes := by
  obtain ⟨key, data, s, hkey, hinput, hends⟩ := hverified
  rw [keyAt_ok_iff] at hkey
  obtain ⟨signature, rfl, haccepts⟩ := (h.openMessage_ok_iff trivial ⟨key⟩ data bytes).mp hends
  exact openedBy_iff.mpr ⟨⟨key⟩, signature, hkey, hinput, haccepts⟩

theorem acceptedBy_of_verified (h : Guard.SignsBy P (fun _ => True) c) (bytes : Bytes)
    (hverified : Verified P pk input (some signature) w bytes) :
    AcceptedBy c pk input signature w := by
  obtain ⟨key, data, s, hkey, hinput, value, hvalue, hends⟩ := hverified
  rw [keyAt_ok_iff] at hkey hvalue
  rw [h.verifyDetached_ok_iff trivial] at hends
  exact ⟨⟨key⟩, data, ⟨value⟩, hkey, hinput, hvalue, hends⟩

theorem exec_verifyInput_of_openedBy (h : Guard.SignsBy P (fun _ => True) c)
    (hopened : OpenedBy c pk input w bytes)
    (hwritable : Writable w.files (output.map Path.source)) :
    ∃ w', exec (verifyInput P pk input none output) w = .ok (.ok (), w') := by
  obtain ⟨⟨key⟩, signature, hkey, hinput, haccepts⟩ := openedBy_iff.mp hopened
  have hends : (Wire.openMessage P ⟨key⟩ (signature.toList ++ bytes)).Ends
      (w.drained input.source).session (.ok bytes) :=
    (h.openMessage_ok_iff trivial ⟨key⟩ _ bytes).mpr ⟨signature, rfl, haccepts⟩
  obtain ⟨w₁, hw₁, hattempt⟩ := exec_attempt_of_ends hends id
  have hfiles : w₁.files = w.files := hw₁.files.trans (World.Withheld.drained w input.source).files
  rw [verifyInput, exec_bind_of_ok (exec_loadKey_of_keyFile hkey),
    exec_bind_of_ok (exec_readInput_of_contents hinput), exec_bind_of_ok hattempt]
  cases output with
  | none => exact ⟨_, rfl⟩
  | some path =>
      have hwritable₁ : Writable w₁.files (some path.source) := by
        rw [hfiles]
        exact hwritable
      obtain ⟨w₂, hwrite⟩ := exec_writeOutput_of_writable hwritable₁ bytes
      exact ⟨_, exec_bind_of_ok hwrite⟩

theorem exec_verifyInput_of_acceptedBy (h : Guard.SignsBy P (fun _ => True) c)
    (haccepted : AcceptedBy c pk input signature w) :
    ∃ w', exec (verifyInput P pk input (some signature) output) w = .ok (.ok (), w') := by
  obtain ⟨⟨key⟩, data, ⟨value⟩, hkey, hinput, hvalue, haccepts⟩ := haccepted
  have hends : (Guard.verifyDetached P ⟨value⟩ data ⟨key⟩).Ends (w.drained input.source).session
      (.ok ()) := (h.verifyDetached_ok_iff trivial ⟨value⟩ data ⟨key⟩).mpr haccepts
  obtain ⟨w₁, -, hattempt⟩ := exec_attempt_of_ends hends fun _ => .verification
  rw [← (World.Withheld.drained w input.source).files] at hvalue
  rw [verifyInput, exec_bind_of_ok (exec_loadKey_of_keyFile hkey),
    exec_bind_of_ok (exec_readInput_of_contents hinput),
    exec_bind_of_ok (exec_loadKey_of_keyFile hvalue), exec_bind_of_ok hattempt]
  exact ⟨_, rfl⟩

/-- How the command line verifies under a scheme. -/
structure VerifiesFiles (P : Provider σ) (c : SignatureScheme) : Prop where
  /-- The signature stands in front of the message, which is what may be released. -/
  combined : ∀ (pk input : Path) (output : Option Path),
    Answers P (.verify pk input none output) (OpenedBy c pk input)
  /-- The signature has a file of its own. -/
  detached : ∀ (pk input signature : Path) (output : Option Path),
    Answers P (.verify pk input (some signature) output)
      fun w _ => AcceptedBy c pk input signature w

theorem verifiesFiles (h : Guard.SignsBy P (fun _ => True) c) : VerifiesFiles P c := by
  constructor
  · intro pk input output
    refine Answers.of_vouched nofun ?_ ?_
    · intro w bytes
      exact openedBy_of_verified h
    · intro w bytes hopened hwritable
      unfold Command.run
      rw [exec_bind_of_ok (exec_emit _ w)]
      exact exec_verifyInput_of_openedBy h hopened hwritable
  · intro pk input signature output
    refine Answers.of_vouched nofun ?_ ?_
    · intro w bytes hverified
      exact acceptedBy_of_verified h bytes hverified
    · intro w bytes haccepted hwritable
      unfold Command.run
      rw [exec_bind_of_ok (exec_emit _ w)]
      exact exec_verifyInput_of_acceptedBy h haccepted

end Verifying

/-! ## The way through files -/

/-- What two parties can count on, of whom the signer has the files of a tree, and the verifier
those that the signer has left. Either may have others besides. Outputs spare the files that
are still to be read. -/
structure SignedExchange (P Q : Provider σ) (t : Tree) (secret pub input : Path) (message : Bytes)
    (signature : Signature) : Prop where
  /-- The signature goes in front of the message, and the verifier gets the message. -/
  combined : ∀ {w : World σ} {output : Path}, t.Retains w.files → Spares w.files output [pub] →
    ∃ w₁, (Command.exit P (.sign secret input output false) : Console σ Nat).run w = .ok (0, w₁) ∧
      Released (some output.source) (signature.toList ++ message) w w₁ ∧
      ∀ {w₂ : World σ} {opened : Option Path}, output.source = .file output →
        w₁.files.Retains w₂.files → Writable w₂.files (opened.map Path.source) →
        ∃ w₃, (Command.exit Q (.verify pub output none opened) : Console σ Nat).run w₂ =
            .ok (0, w₃) ∧ Released (opened.map Path.source) message w₂ w₃
  /-- The digits of the signature go alone, and the verifier accepts them for the message. -/
  detached : ∀ {w : World σ} {output : Path}, t.Retains w.files →
    Spares w.files output [pub, input] →
    ∃ w₁, (Command.exit P (.sign secret input output true) : Console σ Nat).run w = .ok (0, w₁) ∧
      Released (some output.source) (KeyText.encode signature.toList) w w₁ ∧
      ∀ {w₂ : World σ} {opened : Option Path}, output.source = .file output →
        w₁.files.Retains w₂.files →
        ∃ w₃, (Command.exit Q (.verify pub input (some output) opened) : Console σ Nat).run w₂ =
            .ok (0, w₃) ∧ w₂.Withheld w₃
  digits : (KeyText.encode signature.toList).length = 128 ∧
    ∀ b ∈ KeyText.encode signature.toList, b ∈ KeyText.digits

section SignedExchange

variable {P Q : Provider σ} {c d : SignatureScheme} {t : Tree} {secret pub input : Path}
  {sk : SignSecretKey} {pk : SignPublicKey} {message : Bytes} {signature : Signature}

/-- Whoever has the secret key and the message signs it. -/
theorem sign_exits (hP : Guard.SignsBy P (fun _ => True) c) (hsk : KeyFile t secret sk.toList)
    (hfile : input.source = .file input) (hread : t.read input = .ok message)
    (hsign : c.sign? sk message = some signature) {w : World σ} {output : Path}
    (hw : t.Retains w.files) (hwritable : Writable w.files (some output.source))
    (detached : Bool) :
    ∃ w', (Command.exit P (.sign secret input output detached) : Console σ Nat).run w =
        .ok (0, w') ∧ Released (some output.source)
          (if detached then KeyText.encode signature.toList else signature.toList ++ message)
          w w' := by
  have hinput : w.contents input.source = .ok message := by
    rw [hfile]
    exact hw.read hread
  have hsigned : SignedBy c secret input detached w
      (if detached then KeyText.encode signature.toList else signature.toList ++ message) :=
    ⟨sk, message, signature, hsk.of_read fun _ => hw.read, hinput, hsign, rfl⟩
  exact (sign_answers hP secret input output detached).run hsigned (fun _ h => h.unique hsigned)
    hwritable

theorem signedExchange (hP : Guard.SignsBy P (fun _ => True) c) (hQ : VerifiesFiles Q d)
    (hsk : KeyFile t secret sk.toList) (hpk : KeyFile t pub pk.toList)
    (hfile : input.source = .file input) (hread : t.read input = .ok message)
    (hsign : c.sign? sk message = some signature)
    (haccepts : d.accepts pk message signature = true) :
    SignedExchange P Q t secret pub input message signature := by
  constructor
  · intro w output hw hspares
    obtain ⟨w₁, hrun, hreleased⟩ :=
      sign_exits hP hsk hfile hread hsign hw hspares.writable false
    refine ⟨w₁, hrun, hreleased, ?_⟩
    intro w₂ opened houtput hretains hwritable
    have hopened : OpenedBy d pub output w₂ message := by
      refine openedBy_iff.mpr ⟨pk, signature, hpk.of_read fun _ => ?_, ?_, haccepts⟩
      · exact hreleased.read_later hspares List.mem_cons_self hw hretains
      · rw [houtput]
        exact hretains.read (hreleased.read_output houtput)
    exact (hQ.combined pub output opened).run hopened (fun _ h => h.unique hopened) hwritable
  · intro w output hw hspares
    obtain ⟨w₁, hrun, hreleased⟩ := sign_exits hP hsk hfile hread hsign hw hspares.writable true
    refine ⟨w₁, hrun, hreleased, ?_⟩
    intro w₂ opened houtput hretains
    have haccepted : AcceptedBy d pub input output w₂ := by
      refine ⟨pk, message, signature, hpk.of_read fun _ => ?_, ?_, ?_, haccepts⟩
      · exact hreleased.read_later hspares List.mem_cons_self hw hretains
      · rw [hfile]
        exact hreleased.read_later hspares (List.mem_cons_of_mem pub List.mem_cons_self) hw
          hretains hread
      · exact ⟨Hex.encode signature.toList, hretains.read (hreleased.read_output houtput),
          Hex.spells_encode _⟩
    have hanswers := hQ.detached pub input output opened
    obtain ⟨w₃, hverified⟩ := (hanswers.exits_iff w₂).mpr ⟨⟨[], haccepted⟩, nofun⟩
    obtain ⟨bytes, -, hwithheld⟩ := hanswers.released hverified
    exact ⟨w₃, hverified, hwithheld⟩
  · obtain ⟨hlength, hdigits⟩ := KeyText.encode_digits signature.toList
    refine ⟨?_, hdigits⟩
    rw [hlength, ByteVec.length_toList]
    rfl

end SignedExchange

end Command

open Command

/-! ## The real providers -/

/-- The primitives make the same keys and signatures. What they accept may differ. -/
structure Primitives.SameSignatures (p q : Primitives) : Prop where
  publicKey : p.publicKey = q.publicKey
  signature : p.signature = q.signature

/-- The primitives accept their own signature for the message. -/
def Primitives.AcceptsOwn (p : Primitives) (seed : SignSeed) (message : Bytes) : Prop :=
  p.accepts (p.publicKey seed) message (p.signature seed message) = true

instance (p : Primitives) (seed : SignSeed) (message : Bytes) :
    Decidable (p.AcceptsOwn seed message) :=
  inferInstanceAs (Decidable (_ = true))

theorem Primitives.SameSignatures.primitives {p q : Primitives} (h : p.SameSignatures q)
    (choice : ProviderChoice) :
    (choice.primitives p q).publicKey = p.publicKey ∧
      (choice.primitives p q).signature = p.signature := by
  cases choice with
  | sodium => exact ⟨rfl, rfl⟩
  | dalek => exact ⟨h.publicKey.symm, h.signature.symm⟩

/-- The key that is made of a seed signs. -/
theorem Primitives.sign?_ofHalves (p : Primitives) (seed : SignSeed) (message : Bytes) :
    p.scheme.sign? (.ofHalves seed (p.publicKey seed)) message =
      some (p.signature seed message) := by
  simp [Primitives.scheme, Primitives.isWellFormed]

/-- The two files, if they are two, hold the keys that are made of the seed. -/
theorem ProviderChoice.keyFiles_of_seed {p q : Primitives} (choice : ProviderChoice)
    {outDir path : Path} {name : String} {force : Bool} {seed : SignSeed} {w w' : World Entropy}
    (hseed : KeyFile w.files path seed.toList)
    (hrun : (Command.exit (choice.ofPrimitives p q)
      (.keygen .sign outDir name (some path) force) : Console Entropy Nat).run w = .ok (0, w'))
    (hapart : w'.files.locate (keyPath outDir name) ≠ w'.files.locate (pubPath outDir name)) :
    KeyFile w'.files (keyPath outDir name)
        (SignSecretKey.ofHalves seed ((choice.primitives p q).publicKey seed)).toList ∧
      KeyFile w'.files (pubPath outDir name) ((choice.primitives p q).publicKey seed).toList := by
  obtain ⟨sk, pk, hmade⟩ := exists_madePair (exit_zero_iff.mp hrun)
  obtain ⟨hhalves, hown⟩ := hmade.halves (choice.pairsOfSeeds p q)
  obtain ⟨loc, loc', hpair, -⟩ := hmade.stored
  have hread := (hhalves.first_read path rfl).2 _ (keyAt_ok_iff.mpr hseed)
  have hsame : SignSecretKey.seed ⟨sk⟩ = seed := congrArg SignSeed.mk hread.symm
  have hsk : SignSecretKey.ofHalves seed ((choice.primitives p q).publicKey seed) = ⟨sk⟩ := by
    rw [← hsame, ← hown, SignSecretKey.ofHalves_seed_publicKey]
  have hpk : (choice.primitives p q).publicKey seed = ⟨pk⟩ := by
    rw [← hsame, ← hown, hhalves.rest_eq]
  have hne : loc' ≠ loc := by
    rintro rfl
    exact hapart (hpair.key_located.trans hpair.pub.located.symm)
  rw [hsk, hpk]
  exact ⟨keyAt_ok_iff.mp (hpair.key hne).read, keyAt_ok_iff.mp hpair.pub.read⟩

def noteSeed : SignSeed := ⟨.replicate 32 7⟩

/-- A seed, and a message to be signed. -/
def signingDesk : World Entropy where
  provider := ⟨fun _ => 0, 0⟩
  files := (({} : Tree).put ["seed"] (.file (KeyText.encode noteSeed.toList) 0o600)).put ["note"]
    (.file [1, 2, 3] 0o644)

end Strongbox
