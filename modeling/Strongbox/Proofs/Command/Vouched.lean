import Strongbox.Proofs.Command.Release
import Strongbox.Provider.StandIn

/-! # What each command may release

A box is converted, a message signed or opened and an input digested by a guarded operation,
and only its answer is released. -/

namespace Strongbox

variable {σ : Type}

namespace Command

/-- Where a command releases what it has made. -/
def outlet : Command → Option Source
  | .seal args | .unseal args => some args.output.source
  | .sign _ _ output _ => some output.source
  | .verify _ _ none output => output.map Path.source
  | .verify _ _ (some _) _ | .keygen .. => none
  | .hash .. => some .standard

/-- The key on which two key files agree. -/
def Agreed (P : Provider σ) (args : BoxArgs) (w : World σ) (key : SymmetricKey) : Prop :=
  ∃ secret peer s, w.files.keyAt Size.boxSecretKey args.secret = .ok secret ∧
    w.files.keyAt Size.boxPublicKey args.peer = .ok peer ∧
    (Guard.agree P ⟨peer⟩ ⟨secret⟩).Ends s (.ok key)

/-- What the input becomes under the agreed key and the nonce. -/
def Converted (P : Provider σ) (args : BoxArgs)
    (convert : SymmetricKey → Nonce → Bytes → Action σ (Except Trouble Bytes)) (w : World σ)
    (bytes : Bytes) : Prop :=
  ∃ nonce key data s, KeyText.decode Size.nonce args.nonce "nonce" = .ok nonce ∧
    Agreed P args w key ∧ w.contents args.input.source = .ok data ∧
    (convert key ⟨nonce⟩ data).Ends s (.ok bytes)

/-- The input signed with the secret key, or the digits of its signature. -/
def Signed (P : Provider σ) (secret input : Path) (detached : Bool) (w : World σ)
    (bytes : Bytes) : Prop :=
  ∃ sk data s, w.files.keyAt Size.signSecretKey secret = .ok sk ∧
    w.contents input.source = .ok data ∧
    if detached then
      ∃ signature : Signature, (Guard.signDetached P data ⟨sk⟩).Ends s (.ok signature) ∧
        bytes = KeyText.encode signature.toList
    else (Wire.signMessage P ⟨sk⟩ data).Ends s (.ok bytes)

/-- The message of a signed input. With a signature of its own, the input is only accepted. -/
def Verified (P : Provider σ) (pk input : Path) (signature : Option Path) (w : World σ)
    (bytes : Bytes) : Prop :=
  ∃ key data s, w.files.keyAt Size.signPublicKey pk = .ok key ∧
    w.contents input.source = .ok data ∧
    match signature with
    | some path => ∃ signature, w.files.keyAt Size.signature path = .ok signature ∧
        (Guard.verifyDetached P ⟨signature⟩ data ⟨key⟩).Ends s (.ok ())
    | none => (Wire.openMessage P ⟨key⟩ data).Ends s (.ok bytes)

/-- What a stream ends with, if it ends in a digest. -/
def Finished (P : Provider σ) (digest : Digest) : Prop :=
  ∃ (stream : Guard.HashStream P) (s : Session σ) (left : Bytes),
    stream.finish.Ends s ⟨.ok digest, left⟩

/-- A digest that the provider gave, for the input as a whole or at the end of a stream. -/
def Digested (P : Provider σ) (input : Path) (chunkSize : Option Nat) (w : World σ)
    (digest : Digest) : Prop :=
  match chunkSize with
  | none => ∃ data s, w.contents input.source = .ok data ∧ (Guard.digest P data).Ends s (.ok digest)
  | some _ => Finished P digest

/-- The line that shows a digest. -/
def DigestPrinted (P : Provider σ) (input : Path) (chunkSize : Option Nat) (w : World σ)
    (bytes : Bytes) : Prop :=
  ∃ digest, Digested P input chunkSize w digest ∧
    bytes = Text.encode (Hex.encode digest.toList ++ "\n")

/-- The bytes that a command may release. -/
def Vouched (P : Provider σ) (w : World σ) : Command → Bytes → Prop
  | .keygen .. => fun _ => False
  | .seal args => Converted P args (Wire.sealMessage P) w
  | .unseal args => Converted P args (Wire.unsealMessage P) w
  | .sign secret input _ detached => Signed P secret input detached w
  | .verify pk input signature _ => Verified P pk input signature w
  | .hash input chunkSize => DigestPrinted P input chunkSize w

/-! ## The commands one by one -/

variable (P : Provider σ)

theorem quiet_agreedKey (args : BoxArgs) (w : World σ) :
    Quiet (agreedKey P args) w fun key w' => Agreed P args w key ∧ ∃ s, w' = w.after s := by
  rw [agreedKey]
  apply (quiet_loadKey _ args.secret w).bind
  rintro secret w ⟨hsecret, rfl⟩
  apply (quiet_loadKey _ args.peer w).bind
  rintro peer w ⟨hpeer, rfl⟩
  apply (quiet_attempt .agreement (Guard.agree P ⟨peer⟩ ⟨secret⟩) w).imp
  rintro key _ ⟨s, hrun, rfl⟩
  exact ⟨⟨secret, peer, w.session, hsecret, hpeer, s, hrun⟩, s, rfl⟩

theorem convertBox_releasing (args : BoxArgs)
    (convert : SymmetricKey → Nonce → Bytes → Action σ (Except Trouble Bytes)) (w : World σ) :
    Releasing (some args.output.source) (Converted P args convert w) (convertBox P args convert)
      w := by
  rw [convertBox]
  refine (quiet_liftM _ w).bind_releasing ?_
  rintro nonce w - ⟨hnonce, rfl⟩
  apply (quiet_agreedKey P args w).bind_releasing
  rintro key _ - ⟨hkey, s, rfl⟩
  apply (quiet_readInput args.input (w.after s)).bind_releasing
  rintro data _ - ⟨hdata, rfl⟩
  apply (quiet_attempt id (convert key ⟨nonce⟩ data) _).bind_releasing
  rintro bytes _ - ⟨t, hrun, rfl⟩
  exact releasing_writeOutput ⟨nonce, key, data, _, hnonce, hkey, hdata, t, hrun⟩ _

theorem signInput_releasing (secret input output : Path) (detached : Bool) (w : World σ) :
    Releasing (some output.source) (Signed P secret input detached w)
      (signInput P secret input output detached) w := by
  rw [signInput]
  apply (quiet_loadKey _ secret w).bind_releasing
  rintro sk w - ⟨hsk, rfl⟩
  apply (quiet_readInput input w).bind_releasing
  rintro data _ - ⟨hdata, rfl⟩
  cases detached with
  | true =>
      apply (quiet_attempt .signing (Guard.signDetached P data ⟨sk⟩) _).bind_releasing
      rintro signature _ - ⟨t, hrun, rfl⟩
      exact releasing_writeOutput ⟨sk, data, _, hsk, hdata, signature, ⟨t, hrun⟩, rfl⟩ _
  | false =>
      apply (quiet_attempt id (Wire.signMessage P ⟨sk⟩ data) _).bind_releasing
      rintro bytes _ - ⟨t, hrun, rfl⟩
      exact releasing_writeOutput ⟨sk, data, _, hsk, hdata, t, hrun⟩ _

theorem verifyInput_releasing (pk input : Path) (signature output : Option Path) (w : World σ) :
    Releasing (outlet (.verify pk input signature output)) (Verified P pk input signature w)
      (verifyInput P pk input signature output) w := by
  rw [verifyInput]
  apply (quiet_loadKey _ pk w).bind_releasing
  rintro key w - ⟨hkey, rfl⟩
  apply (quiet_readInput input w).bind_releasing
  rintro data _ hdrained ⟨hdata, rfl⟩
  cases signature with
  | some path =>
      apply (quiet_loadKey _ path _).bind_releasing
      rintro signature _ - ⟨hsignature, rfl⟩
      rw [hdrained.files] at hsignature
      apply (quiet_attempt _ (Guard.verifyDetached P ⟨signature⟩ data ⟨key⟩) _).bind_releasing
      rintro u _ - ⟨t, hrun, rfl⟩
      have haccepted : Verified P pk input (some path) w [] :=
        ⟨key, data, _, hkey, hdata, signature, hsignature, t, hrun⟩
      exact releasing_note haccepted _ _
  | none =>
      apply (quiet_attempt id (Wire.openMessage P ⟨key⟩ data) _).bind_releasing
      rintro message _ - ⟨t, hrun, rfl⟩
      have hopened : Verified P pk input none w message := ⟨key, data, _, hkey, hdata, t, hrun⟩
      cases output with
      | some path => exact (releasing_writeOutput hopened _).bind_note _
      | none => exact releasing_note hopened _ _

/-- Feeding releases nothing, by induction on the pieces. -/
theorem quiet_feed {stream : Guard.HashStream P} (pieces : List Bytes) (w : World σ) :
    Quiet (feed stream pieces) w fun _ _ => True := by
  induction pieces generalizing stream w with
  | nil => exact .pure trivial
  | cons piece pieces ih =>
      apply (quiet_guarded (stream.update piece) w).bind
      rintro ⟨result, next⟩ w' -
      cases result with
      | ok u => exact ih w'
      | error e => exact .throw

theorem quiet_readPieces (source : Source) (size : Nat) (w : World σ) :
    Quiet (ExceptT.lift (Host.readPieces source size)) w fun _ _ => True := by
  apply quiet_lift
  change Outcome _ _ ((World.readPieces source size).run w)
  rw [World.readPieces]
  rw [StateT.run_bind, World.consume_run, ok_bind]
  cases w.contents source with
  | error fault => exact ⟨.drained w source, trivial⟩
  | ok input => exact ⟨.drained w source, trivial⟩

/-- A digest comes from the end of a stream. -/
theorem quiet_hashPieces (source : Source) (size : Nat) (w : World σ) :
    Quiet (hashPieces P source size) w fun digest _ => Finished P digest := by
  unfold hashPieces
  extract_lets hashOpened
  have hopened (w : World σ) : Quiet (hashOpened ()) w fun digest _ => Finished P digest := by
    apply (quiet_guarded (Guard.HashStream.start P Guard.StateBuffer.fresh.toList) w).bind
    rintro ⟨started, left⟩ w₁ -
    cases started with
    | error e => exact .throw
    | ok stream =>
        dsimp -zeta only
        extract_lets hashStarted
        have hstarted (w : World σ) :
            Quiet (hashStarted ()) w fun digest _ => Finished P digest := by
          apply (quiet_readPieces source size w).bind
          rintro delivery w₁ -
          apply (quiet_feed P delivery.pieces w₁).bind
          rintro stream w₂ -
          cases delivery.fault with
          | some fault => exact .throw
          | none =>
              apply (quiet_guarded stream.finish w₂).bind
              rintro ⟨result, left⟩ w₃ ⟨s, hrun, -⟩
              cases result with
              | error e => exact .throw
              | ok digest => exact .pure ⟨stream, w₂.session, left, s, hrun⟩
        split
        · apply (quiet_guarded (fun _ => throw .outOfRange : Action σ Unit) w₁).bind
          rintro u w₂ -
          exact hstarted w₂
        · exact hstarted w₁
  cases source with
  | standard => exact hopened w
  | file path =>
      have hopen : Quiet (require (.openFile path) (Host.openSource (.file path))) w
          fun _ _ => True := quiet_require (.refl w)
      apply hopen.bind
      rintro u w₁ -
      exact hopened w₁

theorem hashInput_releasing (input : Path) (chunkSize : Option Nat) (w : World σ) :
    Releasing (some .standard) (DigestPrinted P input chunkSize w) (hashInput P input chunkSize)
      w := by
  have hprint (digest : Digest) (w₁ : World σ) (hdigest : Digested P input chunkSize w digest) :
      Releasing (some .standard) (DigestPrinted P input chunkSize w)
        (printLine (Hex.encode digest.toList)) w₁ :=
    ⟨⟨nofun, fun _ => ⟨_, ⟨digest, hdigest, rfl⟩, rfl, rfl⟩⟩⟩
  unfold hashInput
  cases chunkSize with
  | none =>
      apply (quiet_readInput input w).bind_releasing
      rintro data _ - ⟨hdata, rfl⟩
      apply (quiet_attempt .hashing (Guard.digest P data) _).bind_releasing
      rintro digest _ - ⟨t, hrun, rfl⟩
      exact hprint digest _ ⟨data, _, hdata, t, hrun⟩
  | some size =>
      cases size with
      | zero =>
          have htrouble : Quiet (throw .emptyChunks : ExceptT Trouble (Console σ) Digest) w
              fun _ _ => False := .throw
          apply htrouble.bind_releasing
          rintro digest w₁ - ⟨⟩
      | succ size =>
          apply (quiet_hashPieces P input.source (size + 1) w).bind_releasing
          rintro digest w₁ - hdigest
          exact hprint digest w₁ hdigest

/-! ## All commands -/

/-- Only files and input decide what may be released. -/
theorem vouched_after (c : Command) (w : World σ) (s : Session σ) :
    c.Vouched P (w.after s) = c.Vouched P w := by
  cases c <;> rfl

theorem run_releasing (c : Command) (w : World σ)
    (hc : ∀ kind outDir name seed force, c ≠ .keygen kind outDir name seed force) :
    Releasing c.outlet (c.Vouched P w) (Command.run P c) w := by
  unfold Command.run
  apply (quiet_guarded (Action.emit (.providerSelected P.name)) w).bind_releasing
  rintro u _ - ⟨s, -, rfl⟩
  rw [← vouched_after P c w s]
  match c with
  | .keygen kind outDir name seed force => exact absurd rfl (hc kind outDir name seed force)
  | .seal args => exact convertBox_releasing P args _ _
  | .unseal args => exact convertBox_releasing P args _ _
  | .sign secret input output detached => exact signInput_releasing P secret input output detached _
  | .verify pk input signature output => exact verifyInput_releasing P pk input signature output _
  | .hash input chunkSize => exact hashInput_releasing P input chunkSize _

/-- A command that makes no keys and ends in trouble has released nothing. One that ends well
has released bytes that a guarded operation vouches for, and nothing but the file at its
outlet differs. -/
theorem released_only_at_outlet (c : Command) (w : World σ)
    (hc : ∀ kind outDir name seed force, c ≠ .keygen kind outDir name seed force) :
    Outcome (fun r => Release c.outlet (c.Vouched P w) w r.1 r.2 ∧
        ∀ loc, (∀ p, c.outlet = some (.file p) → w.files.locate p ≠ .ok loc) →
          r.2.files.get? loc = w.files.get? loc)
      (fun _ => True) (exec (Command.run P c) w) := by
  apply (run_releasing P c w hc).outcome.imp
  · rintro ⟨result, w₁⟩ hrelease
    refine ⟨hrelease, fun loc hloc => ?_⟩
    cases result with
    | error trouble => rw [(hrelease.withheld trouble rfl).files]
    | ok u =>
        obtain ⟨bytes, -, hreleased⟩ := hrelease.released rfl
        exact hreleased.elsewhere loc hloc
  · exact fun _ => id

/-- A key file of zeros, and a message. -/
def desk : World StandIn.State where
  provider := {}
  files := (({} : Tree).put ["key"] (.file (List.replicate 64 48) 0o600)).put ["note"]
    (.file [1, 2] 0o644)

/-- The message on the desk, to be sealed in its place. -/
def sealNote : Command :=
  .seal ⟨⟨"key"⟩, ⟨"key"⟩, "000000000000000000000000000000000000000000000000", ⟨"note"⟩, ⟨"note"⟩⟩

/-- A message is sealed over itself, and the key file stays. -/
theorem note_sealed_in_place :
    ∃ w₁ bytes, exec (Command.run StandIn.provider sealNote) desk = .ok (.ok (), w₁) ∧
      desk.files.write ⟨"note"⟩ bytes = .ok w₁.files ∧
      w₁.files.get? ["key"] = desk.files.get? ["key"] := by
  have hends : (exec (Command.run StandIn.provider sealNote) desk).map Prod.fst =
      .ok (.ok ()) := by decide +kernel
  obtain ⟨⟨_, w₁⟩, hrun, rfl⟩ := map_eq_ok_iff.mp hends
  have hreleased := (released_only_at_outlet StandIn.provider sealNote desk nofun).of_ok hrun
  obtain ⟨bytes, -, hwritten⟩ := hreleased.1.released rfl
  refine ⟨w₁, bytes, hrun, hwritten.1, hreleased.2 ["key"] ?_⟩
  rintro p ⟨⟩
  decide

end Command

end Strongbox
