import Strongbox.Proofs.Command.KeyFiles
import Strongbox.Provider.StandIn

/-! # Making a key pair -/

namespace Strongbox.Command

variable {σ α : Type}

/-- What a part of a command leaves of the files, however it ends. -/
structure Leaving (Q : Except Trouble Unit → Tree → Prop)
    (act : ExceptT Trouble (Console σ) Unit) (w : World σ) : Prop where
  outcome : Outcome (fun r => Q r.1 r.2.files) (fun _ => True) (exec act w)

section Leaving

variable {Q : Except Trouble Unit → Tree → Prop} {act act' : ExceptT Trouble (Console σ) Unit}
  {w w' : World σ}

theorem Leaving.of_exec_eq_ok {result : Except Trouble Unit} (h : exec act w = .ok (result, w'))
    (hQ : Q result w'.files) : Leaving Q act w :=
  ⟨.of_eq_ok h hQ⟩

theorem Leaving.imp {R : Except Trouble Unit → Tree → Prop} (h : Leaving Q act w)
    (hQR : ∀ result after, Q result after → R result after) : Leaving R act w :=
  ⟨h.outcome.imp (fun r => hQR r.1 r.2.files) fun _ => id⟩

theorem Leaving.of_exec_eq (h : exec act w = exec act' w') (h' : Leaving Q act' w') :
    Leaving Q act w :=
  ⟨h ▸ h'.outcome⟩

end Leaving

theorem Quiet.bind_leaving {act : ExceptT Trouble (Console σ) α}
    {next : α → ExceptT Trouble (Console σ) Unit} {w : World σ} {R : α → World σ → Prop}
    {Q : Except Trouble Unit → Tree → Prop} (h : Quiet act w R)
    (herror : ∀ trouble, Q (.error trouble) w.files)
    (hnext : ∀ a w', w.Withheld w' → R a w' → Leaving Q (next a) w') :
    Leaving Q (act >>= next) w := by
  constructor
  rw [exec_bind]
  apply h.outcome.bind
  rintro ⟨result, w'⟩ ⟨hw, hresult⟩
  cases result with
  | error trouble =>
      change Q (.error trouble) w'.files
      rw [hw.files]
      exact herror trouble
  | ok a => exact (hnext a w' hw (hresult a rfl)).outcome

/-! ## The parts of a run -/

/-- Unless forced, looks whether a file is in the way. -/
def checkVacant (outDir : Path) (name : String) (force : Bool) :
    ExceptT Trouble (Console σ) Unit := do
  if !force then
    if (← ExceptT.lift (Host.pathExists (keyPath outDir name))) then throw .keyFilesExist
    if (← ExceptT.lift (Host.pathExists (pubPath outDir name))) then throw .keyFilesExist

/-- The bytes of a new key pair, the secret key first. -/
def newKeys (P : Provider σ) (kind : KeyKind) (seed : Option Path) :
    ExceptT Trouble (Console σ) (Bytes × Bytes) := do
  match kind, seed with
  | .box, none =>
    let (pk, sk) ← attempt .boxKeys (Guard.boxKeys P)
    return (sk.toList, pk.toList)
  | .box, some _ => throw .seedForBoxKeys
  | .sign, some path =>
    let seed ← loadKey Size.seed path
    let (pk, sk) ← attempt .signingKeys (Guard.signingKeysOfSeed P ⟨seed⟩)
    return (sk.toList, pk.toList)
  | .sign, none =>
    let (pk, sk) ← attempt .signingKeys (Guard.signingKeys P)
    return (sk.toList, pk.toList)

def announceKeys (P : Provider σ) (kind : KeyKind) (outDir : Path) (name : String) :
    ExceptT Trouble (Console σ) Unit := do
  guarded (Action.emit (.keyPairWritten P.name kind))
  printLine "generated:"
  printLine ("  secret: " ++ (keyPath outDir name).text)
  printLine ("  public: " ++ (pubPath outDir name).text)

theorem makeKeys_eq (P : Provider σ) (kind : KeyKind) (outDir : Path) (name : String)
    (seed : Option Path) (force : Bool) :
    makeKeys P kind outDir name seed force = (do
      require (.makeDirs outDir) (makeDirs outDir outDir.ancestors)
      checkVacant outDir name force
      let keys ← newKeys P kind seed
      saveKeys outDir name keys.1 keys.2
      announceKeys P kind outDir name : ExceptT Trouble (Console σ) Unit) := by
  unfold makeKeys checkVacant newKeys saveKeys announceKeys
  congr 1
  funext u
  cases force with
  | true => cases kind <;> cases seed <;> simp
  | false =>
      simp only [Bool.not_false, ite_true, bind_assoc]
      congr 1
      funext keyTaken
      cases keyTaken with
      | true => simp
      | false =>
          simp only [Bool.false_eq_true, ite_false, bind_assoc]
          congr 1
          funext pubTaken
          cases pubTaken with
          | true => simp
          | false => cases kind <;> cases seed <;> simp

theorem quiet_pathExists (p : Path) (w : World σ) :
    Quiet (ExceptT.lift (Host.pathExists p)) w fun found w' =>
      found = (w.files.find p).isOk ∧ w' = w := by
  apply quiet_lift
  exact ⟨.refl w, rfl, rfl⟩

/-- A run that is not forced goes on only if neither file is there. -/
theorem quiet_checkVacant (outDir : Path) (name : String) (force : Bool) (w : World σ) :
    Quiet (checkVacant outDir name force) w fun _ w' => w' = w ∧
      (force = false → (w.files.find (keyPath outDir name)).isOk = false ∧
        (w.files.find (pubPath outDir name)).isOk = false) := by
  rw [checkVacant]
  cases force with
  | true => exact .pure ⟨rfl, nofun⟩
  | false =>
      apply (quiet_pathExists (keyPath outDir name) w).bind
      rintro keyTaken w ⟨hkey, rfl⟩
      cases keyTaken with
      | true => exact .throw
      | false =>
          apply (quiet_pathExists (pubPath outDir name) w).bind
          rintro pubTaken w ⟨hpub, rfl⟩
          cases pubTaken with
          | true => exact .throw
          | false => exact .pure ⟨rfl, fun _ => ⟨hkey.symm, hpub.symm⟩⟩

/-- The sizes of the keys of a pair. -/
def secretSize : KeyKind → Nat
  | .box => Size.boxSecretKey
  | .sign => Size.signSecretKey

def publicSize : KeyKind → Nat
  | .box => Size.boxPublicKey
  | .sign => Size.signPublicKey

/-- The guarded operation that is asked for a pair has answered this one. Where a seed is to
be used, it is one that `SeedAt` its path. -/
def Answered (P : Provider σ) (s : Session σ) (SeedAt : Path → ByteVec Size.seed → Prop) :
    (kind : KeyKind) → Option Path → ByteVec (secretSize kind) → ByteVec (publicSize kind) → Prop
  | .box, none, sk, pk => (Guard.boxKeys P).Ends s (.ok (⟨pk⟩, ⟨sk⟩))
  | .box, some _, _, _ => False
  | .sign, none, sk, pk => (Guard.signingKeys P).Ends s (.ok (⟨pk⟩, ⟨sk⟩))
  | .sign, some path, sk, pk => ∃ seed, SeedAt path seed ∧
    (Guard.signingKeysOfSeed P ⟨seed⟩).Ends s (.ok (⟨pk⟩, ⟨sk⟩))

theorem quiet_newKeys (P : Provider σ) (kind : KeyKind) (seed : Option Path) (w : World σ) :
    Quiet (newKeys P kind seed) w fun keys _ => ∃ sk pk, keys = (sk.toList, pk.toList) ∧
      Answered P w.session (fun path seed => w.files.keyAt Size.seed path = .ok seed) kind seed
        sk pk := by
  rw [newKeys.eq_def]
  cases kind with
  | box =>
      cases seed with
      | none =>
          apply (quiet_attempt .boxKeys (Guard.boxKeys P) w).bind
          rintro ⟨pk, sk⟩ w' ⟨t, hrun, -⟩
          exact .pure ⟨sk.toByteVec, pk.toByteVec, rfl, t, hrun⟩
      | some path => exact .throw
  | sign =>
      cases seed with
      | none =>
          apply (quiet_attempt .signingKeys (Guard.signingKeys P) w).bind
          rintro ⟨pk, sk⟩ w' ⟨t, hrun, -⟩
          exact .pure ⟨sk.toByteVec, pk.toByteVec, rfl, t, hrun⟩
      | some path =>
          apply (quiet_loadKey Size.seed path w).bind
          rintro seed w' ⟨hseed, rfl⟩
          apply (quiet_attempt .signingKeys (Guard.signingKeysOfSeed P ⟨seed⟩) w').bind
          rintro ⟨pk, sk⟩ w'' ⟨t, hrun, -⟩
          exact .pure ⟨sk.toByteVec, pk.toByteVec, rfl, seed, hseed, t, hrun⟩

theorem leaving_announceKeys (P : Provider σ) (kind : KeyKind) (outDir : Path) (name : String)
    {w : World σ} {Q : Except Trouble Unit → Tree → Prop} (h : Q (.ok ()) w.files) :
    Leaving Q (announceKeys P kind outDir name) w := ⟨h⟩

/-! ## What a run does -/

/-- All that a run can do to the files. It makes directories and stops, or it goes on, unless
forced only where neither file is there, and comes to write the pair that the provider has
answered. -/
inductive KeysMade (P : Provider σ) (kind : KeyKind) (outDir : Path) (name : String)
    (seed : Option Path) (force : Bool) (w : World σ) : Except Trouble Unit → Tree → Prop where
  | stopped (trouble : Trouble) (after : Tree) (kept : w.files.KeepsBut [] after) :
      KeysMade P kind outDir name seed force w (.error trouble) after
  | written (between after : Tree) (result : Except Trouble Unit)
      (sk : ByteVec (secretSize kind)) (pk : ByteVec (publicSize kind))
      (kept : w.files.KeepsBut [] between)
      (vacant : force = false → (between.find (keyPath outDir name)).isOk = false ∧
        (between.find (pubPath outDir name)).isOk = false)
      (answered : Answered P w.session
        (fun path seed => between.keyAt Size.seed path = .ok seed) kind seed sk pk)
      (saved : Saved outDir name sk.toList pk.toList between result after) :
      KeysMade P kind outDir name seed force w result after

theorem makeKeys_keysMade (P : Provider σ) (kind : KeyKind) (outDir : Path) (name : String)
    (seed : Option Path) (force : Bool) (w : World σ) :
    Leaving (KeysMade P kind outDir name seed force w)
      (makeKeys P kind outDir name seed force) w := by
  rw [makeKeys_eq]
  obtain ⟨made, between, hmade, hkept⟩ := makeDirs_run outDir outDir.ancestors w
  have hdirs : exec (require (.makeDirs outDir) (makeDirs outDir outDir.ancestors)) w =
      .ok (made.mapError (.makeDirs outDir), { w with files := between }) := by
    rw [exec_require, hmade]
    rfl
  cases made with
  | error fault => exact .of_exec_eq_ok (exec_bind_of_error hdirs) (.stopped _ _ hkept)
  | ok u =>
      apply Leaving.of_exec_eq (exec_bind_of_ok hdirs)
      apply (quiet_checkVacant outDir name force _).bind_leaving fun trouble =>
        .stopped trouble _ hkept
      rintro u _ - ⟨rfl, hvacant⟩
      apply (quiet_newKeys P kind seed _).bind_leaving fun trouble => .stopped trouble _ hkept
      rintro _ w' hw ⟨sk, pk, rfl, hanswered⟩
      obtain ⟨result, after, hsave, hsaved⟩ := @exec_saveKeys σ outDir name sk.toList pk.toList w'
      rw [hw.files] at hsaved
      have hmade := KeysMade.written between after result sk pk hkept hvacant hanswered hsaved
      cases result with
      | error trouble => exact .of_exec_eq_ok (exec_bind_of_error hsave) hmade
      | ok u =>
          apply Leaving.of_exec_eq (exec_bind_of_ok hsave)
          exact leaving_announceKeys P kind outDir name hmade

/-! ## What a failing run leaves -/

/-- What a run that makes no key pair may have done to the files. -/
inductive Leftover (outDir : Path) (name : String) (force : Bool) (before : Tree)
    (trouble : Trouble) (after : Tree) : Prop where
  /-- Every file is as it was, and none is new. -/
  | kept (files : before.KeepsBut [] after)
  /-- A forced run did not look, and a directory barred the public key after the secret key
  had been written. -/
  | torn (loc : Location) (sk : Bytes) (forced : force = true)
      (told : trouble = .write (pubPath outDir name) .isDirectory)
      (barred : after.isDirectory (pubPath outDir name) = true)
      (located : after.locate (keyPath outDir name) = .ok loc)
      (replaced : after.get? loc = some (.file (KeyText.encode sk) secretMode))
      (others : before.KeepsBut [loc] after)

/-- Where no link has the name of the public key, only a directory bars it from a place beside
the secret key. -/
theorem write_pubPath_error {outDir : Path} {name : String} {t : Tree} {loc : Location}
    {contents : Bytes} {fault : Fault} (hplain : t.Unlinked (pubPath outDir name))
    (hkey : t.locate (keyPath outDir name) = .ok loc)
    (h : t.write (pubPath outDir name) contents = .error fault) :
    fault = .isDirectory ∧ t.isDirectory (pubPath outDir name) = true := by
  obtain ⟨loc', hpub⟩ := exists_locate_pubPath hplain hkey
  by_cases hdirectory : t.get? loc' = some .directory
  · simp only [Tree.write, hpub, ok_bind, pubPath_asksForDirectory, hdirectory] at h
    cases h
    exact ⟨rfl, Tree.isDirectory_iff.mpr ⟨loc', hpub, hdirectory⟩⟩
  · have hadmits : t.Admits (pubPath outDir name) loc' :=
      ⟨hpub, pubPath_asksForDirectory outDir name, hdirectory⟩
    rw [hadmits.write] at h
    cases h

/-- Writing the pair tears it only where a directory stands, and a run that is not forced has
seen that none does. -/
theorem saveKeys_leftover {outDir : Path} {name : String} {force : Bool}
    {before between after : Tree} {sk pk : Bytes} {trouble : Trouble}
    (hplain : before.Unlinked (pubPath outDir name)) (hkept : before.KeepsBut [] between)
    (hvacant : force = false → (between.find (pubPath outDir name)).isOk = false)
    (h : Saved outDir name sk pk between (.error trouble) after) :
    Leftover outDir name force before trouble after := by
  cases h with
  | barred fault => exact .kept hkept
  | torn loc fault hkey hpub =>
      let key : Entry := .file (KeyText.encode sk) secretMode
      have hlocated : (between.put loc key).locate (keyPath outDir name) = .ok loc :=
        Tree.locate_put hkey.free key hkey.located
      have hplain' : (between.put loc key).Unlinked (pubPath outDir name) :=
        Tree.unlinked_of_links_eq hplain hkept.links
      obtain ⟨rfl, hbarred⟩ := write_pubPath_error hplain' hlocated hpub
      have hforced : force = true := by
        by_contra hforce
        have hmissing := hvacant (by simpa using hforce)
        have hstands := (Tree.keepsWays_of_put_file hkey.free _ _).isDirectory hbarred
        rw [Tree.find_of_isDirectory hstands] at hmissing
        cases hmissing
      refine .torn loc sk hforced rfl hbarred hlocated ?_ ?_
      · exact Tree.get?_put_self between _ hkey.ne_nil
      · exact hkept.trans (Tree.keepsBut_put hkey.free _ _)

theorem makeKeys_leaving (P : Provider σ) (kind : KeyKind) (outDir : Path) (name : String)
    (seed : Option Path) (force : Bool) (w : World σ)
    (hplain : w.files.Unlinked (pubPath outDir name)) :
    Leaving (fun result after => ∀ trouble, result = .error trouble →
      Leftover outDir name force w.files trouble after)
      (makeKeys P kind outDir name seed force) w := by
  apply (makeKeys_keysMade P kind outDir name seed force w).imp
  rintro _ after hmade trouble rfl
  cases hmade with
  | stopped trouble after kept => exact .kept kept
  | written between after result sk pk kept vacant answered saved =>
      exact saveKeys_leftover hplain kept (fun hforce => (vacant hforce).2) saved

/-- A run that fails has kept every file, except that a forced run may have replaced the secret
key before a directory barred the public one. No link may have the name of the public key. -/
theorem failing_keygen_keeps_files (P : Provider σ) (kind : KeyKind) (outDir : Path)
    (name : String) (seed : Option Path) (force : Bool) (w : World σ)
    (hplain : w.files.Unlinked (pubPath outDir name)) :
    Outcome (fun r => ∀ trouble, r.1 = .error trouble →
        Leftover outDir name force w.files trouble r.2.files ∧
          (force = false → w.files.KeepsBut [] r.2.files))
      (fun _ => True) (exec (Command.run P (.keygen kind outDir name seed force)) w) := by
  unfold Command.run
  rw [exec_bind_of_ok (exec_emit _ w)]
  refine (makeKeys_leaving P kind outDir name seed force _ ?_).outcome.imp ?_ ?_
  · exact hplain
  · rintro r hleft trouble htrouble
    refine ⟨hleft trouble htrouble, fun hforce => ?_⟩
    cases hleft trouble htrouble with
    | kept files => exact files
    | torn loc sk forced => exact absurd (forced.symm.trans hforce) (by decide)
  · exact fun _ => id

/-- A drawer with an old secret key, and a directory where the public key belongs. -/
def drawer : World StandIn.State where
  provider := {}
  files := ((({} : Tree).put ["keys"] .directory).put ["keys", "id.key"]
    (.file [1, 2, 3] secretMode)).put ["keys", "id.pub"] .directory

/-- Makes a pair in the drawer. -/
def keepPair (force : Bool) : Command := .keygen .box ⟨"keys"⟩ "id" none force

/-- Without force, the old key is kept. -/
theorem old_key_kept :
    ∃ w', exec (Command.run StandIn.provider (keepPair false)) drawer =
        .ok (.error .keyFilesExist, w') ∧
      drawer.files.KeepsBut [] w'.files := by
  have hends : (exec (Command.run StandIn.provider (keepPair false)) drawer).map Prod.fst =
      .ok (.error .keyFilesExist) := by decide +kernel
  obtain ⟨⟨_, w'⟩, hrun, rfl⟩ := map_eq_ok_iff.mp hends
  have hleft :=
    (failing_keygen_keeps_files StandIn.provider .box ⟨"keys"⟩ "id" none false drawer nofun).of_ok
      hrun
  exact ⟨w', hrun, (hleft _ rfl).2 rfl⟩

/-- With force, a run fails and the old key is gone. -/
theorem old_key_lost :
    ∃ trouble w', exec (Command.run StandIn.provider (keepPair true)) drawer =
        .ok (.error trouble, w') ∧
      drawer.files.get? ["keys", "id.key"] = some (.file [1, 2, 3] secretMode) ∧
      w'.files.get? ["keys", "id.key"] ≠ some (.file [1, 2, 3] secretMode) := by
  have hends : (exec (Command.run StandIn.provider (keepPair true)) drawer).map
      (Prod.map id fun w' => w'.files.get? ["keys", "id.key"]) =
        .ok (.error (.write ⟨"keys/id.pub"⟩ .isDirectory),
          some (.file (KeyText.encode (List.replicate 32 1)) secretMode)) := by decide +kernel
  obtain ⟨w', hrun, hentry⟩ := exists_of_map_eq_ok hends
  refine ⟨_, w', hrun, rfl, ?_⟩
  rw [hentry]
  decide +kernel

end Strongbox.Command
