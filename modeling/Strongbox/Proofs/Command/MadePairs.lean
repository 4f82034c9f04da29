import Mathlib.Logic.Relation
import Strongbox.Proofs.Command.Exchange
import Strongbox.Proofs.Command.KeyPair
import Strongbox.Proofs.Provider.Signing

/-! # Key pairs that were made

A run that makes keys and ends well leaves a pair that reads back as the provider answered it,
and has touched no file but where the two paths lead, links included. Runs that are not forced
leave every file as it is. -/

namespace Strongbox.Command

variable {σ : Type}

/-! ## A pair in its files -/

/-- A key in its file, with its permissions, where the path leads, and as it is read from there. -/
structure KeyIn (t : Tree) (p : Path) {n : Nat} (key : ByteVec n) (mode : Nat) (loc : Location) :
    Prop where
  located : t.locate p = .ok loc
  file : t.get? loc = some (.file (KeyText.encode key.toList) mode)
  read : t.keyAt n p = .ok key

/-- A pair where its two paths lead. Where these are one place, the public key is in it. -/
structure PairIn (t : Tree) (outDir : Path) (name : String) {m n : Nat} (sk : ByteVec m)
    (pk : ByteVec n) (loc loc' : Location) : Prop where
  key_located : t.locate (keyPath outDir name) = .ok loc
  key : loc' ≠ loc → KeyIn t (keyPath outDir name) sk secretMode loc
  pub : KeyIn t (pubPath outDir name) pk publicMode loc'

section PairIn

variable {t t' : Tree} {outDir : Path} {name : String} {m n : Nat} {sk : ByteVec m}
  {pk : ByteVec n} {loc loc' : Location}

/-- What was written as a key is read as that key. -/
theorem keyIn_of_file {p : Path} {mode : Nat} (hlocated : t.locate p = .ok loc)
    (hnamed : p.asksForDirectory = false)
    (hentry : t.get? loc = some (.file (KeyText.encode sk.toList) mode)) :
    KeyIn t p sk mode loc := by
  refine ⟨hlocated, hentry, ?_⟩
  rw [keyAt_ok_iff]
  exact ⟨Hex.encode sk.toList, Tree.read_of_file hlocated hnamed hentry, Hex.spells_encode _⟩

theorem keyAt_of_retains {p : Path} (hretains : t.Retains t') (h : t.keyAt n p = .ok pk) :
    t'.keyAt n p = .ok pk := by
  rw [keyAt_ok_iff] at h ⊢
  obtain ⟨text, hread, hspells⟩ := h
  exact ⟨text, hretains.read hread, hspells⟩

theorem KeyIn.retained {p : Path} {mode : Nat} (h : KeyIn t p sk mode loc)
    (hretains : t.Retains t') : KeyIn t' p sk mode loc :=
  ⟨hretains.keepsWays.locate h.located, hretains.entries _ _ h.file,
    keyAt_of_retains hretains h.read⟩

theorem PairIn.retained (h : PairIn t outDir name sk pk loc loc') (hretains : t.Retains t') :
    PairIn t' outDir name sk pk loc loc' :=
  ⟨hretains.keepsWays.locate h.key_located, fun hne => (h.key hne).retained hretains,
    h.pub.retained hretains⟩

/-- A pair that was saved is in its files, and these are all that has changed. -/
theorem Saved.pairIn {before after : Tree}
    (h : Saved outDir name sk.toList pk.toList before (.ok ()) after) :
    ∃ loc loc', PairIn after outDir name sk pk loc loc' ∧ before.KeepsBut [loc, loc'] after ∧
      (before.Unlinked (keyPath outDir name) → before.Unlinked (pubPath outDir name) →
        loc' ≠ loc) := by
  cases h with
  | saved loc loc' hkey hpub =>
      let key : Entry := .file (KeyText.encode sk.toList) secretMode
      have hbetween : (before.put loc key).Admits (pubPath outDir name) loc' :=
        (Tree.admits_put_file_iff hkey.free _ _).mpr hpub
      have hlocated {p : Path} {loc : Location} (h : before.locate p = .ok loc) :=
        Tree.locate_put hbetween.free (.file (KeyText.encode pk.toList) publicMode)
          (Tree.locate_put hkey.free key h)
      refine ⟨loc, loc', ⟨hlocated hkey.located, fun hne => ?_, ?_⟩, ?_, ?_⟩
      · refine keyIn_of_file (hlocated hkey.located) hkey.named ?_
        rw [Tree.get?_put_of_ne _ _ hpub.ne_nil hne.symm, Tree.get?_put_self _ _ hkey.ne_nil]
      · exact keyIn_of_file (hlocated hpub.located) hpub.named (Tree.get?_put_self _ _ hpub.ne_nil)
      · exact (Tree.keepsBut_put hkey.free _ _).trans (Tree.keepsBut_put hbetween.free _ _)
      · exact fun hkeyPlain hpubPlain =>
          locate_pubPath_ne hkeyPlain hpubPlain hkey.located hpub.located

/-- Where neither file is in the way, saving a pair puts new entries only, however it ends. -/
theorem Saved.retains {sk pk : Bytes} {before after : Tree} {result : Except Trouble Unit}
    (h : Saved outDir name sk pk before result after)
    (hkeyVacant : (before.find (keyPath outDir name)).isOk = false)
    (hpubVacant : (before.find (pubPath outDir name)).isOk = false) : before.Retains after := by
  cases h with
  | barred fault => exact .refl before
  | torn loc fault hkey hpub => exact Tree.retains_put (hkey.get?_eq_none hkeyVacant) _
  | saved loc loc' hkey hpub =>
      by_cases hne : loc' = loc
      · subst hne
        rw [Tree.put_put]
        exact Tree.retains_put (hkey.get?_eq_none hkeyVacant) _
      · refine (Tree.retains_put (hkey.get?_eq_none hkeyVacant) _).trans (Tree.retains_put ?_ _)
        rw [Tree.get?_put_of_ne _ _ hkey.ne_nil hne, hpub.get?_eq_none hpubVacant]

end PairIn

/-! ## Runs that are not forced -/

/-- A run that makes keys without force, with any provider and any arguments, which may end well
or not. -/
def UnforcedRun (before after : Tree) : Prop :=
  ∃ (σ : Type) (P : Provider σ) (kind : KeyKind) (outDir : Path) (name : String)
    (seed : Option Path) (w w' : World σ) (code : Nat),
    (Command.exit P (.keygen kind outDir name seed false) : Console σ Nat).run w = .ok (code, w') ∧
      w.files = before ∧ w'.files = after

/-- What the part that makes keys has done is what the run has done. -/
theorem exec_keygen_keysMade {P : Provider σ} {kind : KeyKind} {outDir : Path} {name : String}
    {seed : Option Path} {force : Bool} {w w' : World σ} {result : Except Trouble Unit}
    (h : exec (Command.run P (.keygen kind outDir name seed force)) w = .ok (result, w')) :
    KeysMade P kind outDir name seed force w result w'.files := by
  unfold Command.run at h
  rw [exec_bind_of_ok (exec_emit _ w)] at h
  cases (makeKeys_keysMade P kind outDir name seed force _).outcome.of_ok h with
  | stopped trouble after kept => exact .stopped trouble _ kept
  | written between after result sk pk kept vacant answered saved =>
      exact .written between _ result sk pk kept vacant answered saved

theorem UnforcedRun.retains {before after : Tree} (h : UnforcedRun before after) :
    before.Retains after := by
  obtain ⟨σ, P, kind, outDir, name, seed, w, w', code, hrun, rfl, rfl⟩ := h
  obtain ⟨result, w₁, hexec, hfiles, -⟩ := exec_of_exit_run hrun
  rw [hfiles]
  cases exec_keygen_keysMade hexec with
  | stopped trouble after kept => exact kept.retains
  | written between after result sk pk kept vacant answered saved =>
      obtain ⟨hkey, hpub⟩ := vacant rfl
      exact kept.retains.trans (saved.retains hkey hpub)

/-- By induction on the runs: one after another, they keep every entry. -/
theorem retains_of_unforcedRuns {before after : Tree}
    (h : Relation.ReflTransGen UnforcedRun before after) : before.Retains after := by
  induction h with
  | refl => exact .refl before
  | tail _ hrun ih => exact ih.trans hrun.retains

/-! ## Runs that end well -/

/-- The seed that a path spells once the missing directories are made. What it spelled before
that, if it did, is the same. -/
def SeedFor (before : Tree) (path : Path) (seed : ByteVec Size.seed) : Prop :=
  (∃ between, before.KeepsBut [] between ∧ between.keyAt Size.seed path = .ok seed) ∧
    ∀ other, before.keyAt Size.seed path = .ok other → other = seed

theorem seedFor_of_keyAt {before between : Tree} {path : Path} {seed : ByteVec Size.seed}
    (hkept : before.KeepsBut [] between) (h : between.keyAt Size.seed path = .ok seed) :
    SeedFor before path seed := by
  refine ⟨⟨between, hkept, h⟩, fun other hother => ?_⟩
  have hsame := keyAt_of_retains hkept.retains hother
  exact Except.ok.inj (hsame.symm.trans h)

/-- A pair was made: it is the provider's answer, stands where its two paths lead and stays there
through all later runs that are not forced. These are two places unless a link has one of the
names. No other file has been created or changed, and an unforced run has found neither path to
lead to anything. -/
structure MadePair (P : Provider σ) (kind : KeyKind) (outDir : Path) (name : String)
    (seed : Option Path) (force : Bool) (w w' : World σ) (sk : ByteVec (secretSize kind))
    (pk : ByteVec (publicSize kind)) : Prop where
  answered : Answered P w.session (SeedFor w.files) kind seed sk pk
  stored : ∃ loc loc', PairIn w'.files outDir name sk pk loc loc' ∧
    w.files.KeepsBut [loc, loc'] w'.files ∧
    (w.files.Unlinked (keyPath outDir name) → w.files.Unlinked (pubPath outDir name) →
      loc' ≠ loc) ∧
    ∀ later, Relation.ReflTransGen UnforcedRun w'.files later →
      PairIn later outDir name sk pk loc loc'
  vacant : force = false → (w.files.find (keyPath outDir name)).isOk = false ∧
    (w.files.find (pubPath outDir name)).isOk = false

theorem Answered.imp {P : Provider σ} {s : Session σ} {kind : KeyKind} {seed : Option Path}
    {sk : ByteVec (secretSize kind)} {pk : ByteVec (publicSize kind)}
    {SeedAt SeedAt' : Path → ByteVec Size.seed → Prop} (h : Answered P s SeedAt kind seed sk pk)
    (himp : ∀ path seed, SeedAt path seed → SeedAt' path seed) :
    Answered P s SeedAt' kind seed sk pk := by
  cases kind with
  | box => cases seed <;> exact h
  | sign =>
      cases seed with
      | none => exact h
      | some path =>
          obtain ⟨bytes, hseed, hends⟩ := h
          exact ⟨bytes, himp _ _ hseed, hends⟩

/-- What is not found after directories have been made was not there before. -/
theorem vacant_of_retains {before between : Tree} {p : Path} (hretains : before.Retains between)
    (h : (between.find p).isOk = false) : (before.find p).isOk = false := by
  cases hfind : before.find p with
  | error fault => rfl
  | ok e =>
      rw [hretains.find hfind] at h
      cases h

theorem exists_madePair {P : Provider σ} {kind : KeyKind} {outDir : Path} {name : String}
    {seed : Option Path} {force : Bool} {w w' : World σ}
    (h : exec (Command.run P (.keygen kind outDir name seed force)) w = .ok (.ok (), w')) :
    ∃ sk pk, MadePair P kind outDir name seed force w w' sk pk := by
  cases exec_keygen_keysMade h with
  | written between after result sk pk kept vacant answered saved =>
      obtain ⟨loc, loc', hpair, hothers, hapart⟩ := saved.pairIn
      refine ⟨sk, pk, answered.imp fun path seed => seedFor_of_keyAt kept,
        ⟨loc, loc', hpair, kept.trans hothers, fun hkeyPlain hpubPlain => ?_,
          fun later hruns => ?_⟩, fun hforce => ?_⟩
      · exact hapart (Tree.unlinked_of_links_eq hkeyPlain kept.links)
          (Tree.unlinked_of_links_eq hpubPlain kept.links)
      · exact hpair.retained (retains_of_unforcedRuns hruns)
      · obtain ⟨hkey, hpub⟩ := vacant hforce
        exact ⟨vacant_of_retains kept.retains hkey, vacant_of_retains kept.retains hpub⟩

end Strongbox.Command

namespace Strongbox

variable {σ : Type}

/-! ## Where signing keys come from -/

namespace Guard

/-- The signing keys that a provider makes are made of a seed, the one that it is given if it is
given one. -/
structure PairsOfSeeds (P : Provider σ) (publicKey : SignSeed → SignPublicKey) : Prop where
  fresh : ∀ {q q' : σ} {pk : SignPublicKey} {sk : SignSecretKey},
    P.signingKeys.run q = .ok (.ok (pk, sk), q') →
    ∃ seed, pk = publicKey seed ∧ sk = .ofHalves seed pk
  seeded : ∀ {q q' : σ} {seed : SignSeed} {pk : SignPublicKey} {sk : SignSecretKey},
    (P.signingKeysOfSeed seed).run q = .ok (.ok (pk, sk), q') →
    pk = publicKey seed ∧ sk = .ofHalves seed pk

/-- What a guarded operation reports, the provider has answered. -/
theorem answered_of_reported {α : Type} {answer : Answer α} {a : α}
    (h : .ok a = reported answer) : answer = .ok a := by
  cases answer with
  | ok b =>
      cases h
      rfl
  | error _ => cases h

/-- The key is accepted for signing in all three ways, whatever the message. -/
structure Signs (P : Provider σ) (sk : SignSecretKey) : Prop where
  detached : ∀ (s : Session σ) (message : Bytes),
    ∃ signature, (signDetached P message sk).Ends s (.ok signature)
  into : ∀ (s : Session σ) (out message : Bytes), message.length + Size.signature ≤ out.length →
    ∃ n after, (sign P out message sk).Ends s ⟨.ok n, after⟩
  inPlace : ∀ (s : Session σ) (buf : Bytes), Size.signature ≤ buf.length →
    ∃ n after, (signInPlace P buf sk).Ends s ⟨.ok n, after⟩

theorem SignsBy.signs {P : Provider σ} {c : SignatureScheme} (h : SignsBy P (fun _ => True) c)
    (hown : c.SignsOwnKeys) {sk : SignSecretKey} (hsk : sk.publicKey = c.publicKey sk.seed) :
    Signs P sk where
  detached s message := by
    have hmade := h.signsWithMadeKeys (s := s) (t := s) trivial trivial hown
    exact (hmade.detached_iff sk message).mpr ((hmade.makes_iff sk).mpr hsk)
  into s out message hroom := by
    have hmade := h.signsWithMadeKeys (s := s) (t := s) trivial trivial hown
    exact (hmade.into_iff sk message out hroom).mpr ((hmade.makes_iff sk).mpr hsk)
  inPlace s buf hlong := by
    have hmade := h.signsWithMadeKeys (s := s) (t := s) trivial trivial hown
    exact (hmade.inPlace_iff sk buf hlong).mpr ((hmade.makes_iff sk).mpr hsk)

end Guard

open Guard

/-- A stand-in that is switched to fail makes no keys. -/
theorem StandIn.signingKeysOfSeed_answer {q q' : StandIn.State} {seed : SignSeed}
    {pk : SignPublicKey} {sk : SignSecretKey}
    (h : (StandIn.signingKeysOfSeed seed).run q = .ok (.ok (pk, sk), q')) :
    pk = (StandIn.scheme false).publicKey seed ∧ sk = .ofHalves seed pk := by
  rw [StandIn.signingKeysOfSeed, StandIn.asking, StandIn.entering_run] at h
  cases hfailing : q.failing with
  | false =>
      rw [hfailing] at h
      cases h
      exact ⟨rfl, rfl⟩
  | true =>
      rw [hfailing] at h
      cases h

theorem StandIn.pairsOfSeeds : PairsOfSeeds StandIn.provider (StandIn.scheme false).publicKey where
  fresh h := ⟨_, StandIn.signingKeysOfSeed_answer h⟩
  seeded h := StandIn.signingKeysOfSeed_answer h

theorem Split.pairsOfSeeds (p : Primitives) : PairsOfSeeds (Split.provider p) p.publicKey where
  fresh h := by
    cases h
    rw [SignSecretKey.publicKey_ofHalves]
    exact ⟨_, rfl, rfl⟩
  seeded h := by
    cases h
    rw [SignSecretKey.publicKey_ofHalves]
    exact ⟨rfl, rfl⟩

theorem Joined.pairsOfSeeds (p : Primitives) : PairsOfSeeds (Joined.provider p) p.publicKey where
  fresh h := by
    cases h
    exact ⟨_, rfl, rfl⟩
  seeded h := by
    cases h
    exact ⟨rfl, rfl⟩

namespace Command

/-- The two halves of a secret key that was made: the seed, the one that was asked for if one
was, and the public key. -/
structure Halves (before : Tree) (seed : Option Path) (sk : SignSecretKey) (pk : SignPublicKey) :
    Prop where
  rest_eq : sk.publicKey = pk
  first_read : ∀ path, seed = some path → SeedFor before path sk.seed.toByteVec

theorem MadePair.halves {P : Provider σ} {publicKey : SignSeed → SignPublicKey}
    (hP : PairsOfSeeds P publicKey) {outDir : Path} {name : String} {seed : Option Path}
    {force : Bool} {w w' : World σ} {sk : ByteVec Size.signSecretKey}
    {pk : ByteVec Size.signPublicKey}
    (h : MadePair P .sign outDir name seed force w w' sk pk) :
    Halves w.files seed ⟨sk⟩ ⟨pk⟩ ∧
      SignSecretKey.publicKey ⟨sk⟩ = publicKey (SignSecretKey.seed ⟨sk⟩) := by
  have hanswered := h.answered
  cases seed with
  | none =>
      obtain ⟨⟨answer, q⟩, hrun, hreported⟩ := hanswered.of_map (signingKeys_run P w.session)
      obtain rfl := answered_of_reported hreported
      obtain ⟨made, hpk, hsk⟩ := hP.fresh hrun
      rw [hsk, SignSecretKey.publicKey_ofHalves, SignSecretKey.seed_ofHalves]
      exact ⟨⟨SignSecretKey.publicKey_ofHalves _ _, nofun⟩, hpk⟩
  | some path =>
      obtain ⟨bytes, hseed, hends⟩ := hanswered
      obtain ⟨⟨answer, q⟩, hrun, hreported⟩ :=
        hends.of_map (signingKeysOfSeed_run P ⟨bytes⟩ w.session)
      obtain rfl := answered_of_reported hreported
      obtain ⟨hpk, hsk⟩ := hP.seeded hrun
      rw [hsk, SignSecretKey.publicKey_ofHalves, SignSecretKey.seed_ofHalves]
      refine ⟨⟨SignSecretKey.publicKey_ofHalves _ _, ?_⟩, hpk⟩
      rintro _ ⟨⟩
      rw [SignSecretKey.seed_ofHalves]
      exact hseed

end Command

open Command

theorem ProviderChoice.pairsOfSeeds (p q : Primitives) (choice : ProviderChoice) :
    PairsOfSeeds (choice.ofPrimitives p q) (choice.primitives p q).publicKey := by
  cases choice with
  | sodium => exact Joined.pairsOfSeeds p
  | dalek => exact Split.pairsOfSeeds q

/-- Whatever the files and the arguments, a run that ends well has made a pair. The halves of
a signing key are the seed and the public key, and with a real provider the key signs. -/
theorem made_pairs_usable (outDir : Path) (name : String) (seed : Option Path) (force : Bool) :
    (∀ (σ : Type) (P : Provider σ) (kind : KeyKind) (w w' : World σ),
      (Command.exit P (.keygen kind outDir name seed force) : Console σ Nat).run w = .ok (0, w') →
        ∃ sk pk, MadePair P kind outDir name seed force w w' sk pk) ∧
    (∀ (w w' : World StandIn.State) (sk : SignSecretKey) (pk : SignPublicKey),
      MadePair StandIn.provider .sign outDir name seed force w w' sk.toByteVec pk.toByteVec →
        Halves w.files seed sk pk) ∧
    ∀ (p q : Primitives) (choice : ProviderChoice) (w w' : World Entropy) (sk : SignSecretKey)
      (pk : SignPublicKey),
      MadePair (choice.ofPrimitives p q) .sign outDir name seed force w w' sk.toByteVec
          pk.toByteVec →
        Halves w.files seed sk pk ∧ Signs (choice.ofPrimitives p q) sk := by
  refine ⟨?_, ?_, ?_⟩
  · intro σ P kind w w' hrun
    exact exists_madePair (exit_zero_iff.mp hrun)
  · intro w w' sk pk hmade
    exact (hmade.halves StandIn.pairsOfSeeds).1
  · intro p q choice w w' sk pk hmade
    obtain ⟨hhalves, hown⟩ := hmade.halves (choice.pairsOfSeeds p q)
    exact ⟨hhalves, (choice.signsBy_ofPrimitives p q).signs (Primitives.signsOwnKeys _) hown⟩

/-- A drawer where the seed of a key stands in the place of its secret key. -/
def seededDrawer : World Entropy where
  provider := ⟨fun _ => 0, 0⟩
  files := (({} : Tree).put ["keys"] .directory).put ["keys", "id.key"]
    (.file (KeyText.encode (List.replicate 32 7)) 0o640)

/-- A forced run replaces the seed by the key that is made of it, under its own permissions. -/
theorem seed_replaced_by_its_key :
    ∃ (w' : World Entropy) (sk : SignSecretKey) (pk : SignPublicKey),
      (Command.exit ProviderChoice.dalek.provider
        (.keygen .sign ⟨"keys"⟩ "id" (some ⟨"keys/id.key"⟩) true) : Console Entropy Nat).run
          seededDrawer = .ok (0, w') ∧
      w'.files.get? ["keys", "id.key"] = some (.file (KeyText.encode sk.toList) 0o600) ∧
      w'.files.get? ["keys", "id.pub"] = some (.file (KeyText.encode pk.toList) 0o644) ∧
      sk.seed = ⟨.replicate 32 7⟩ ∧ sk.publicKey = pk ∧
      Signs ProviderChoice.dalek.provider sk := by
  obtain ⟨hmakes, -, hreal⟩ :=
    made_pairs_usable ⟨"keys"⟩ "id" (some ⟨"keys/id.key"⟩) true
  have hends : ((Command.exit ProviderChoice.dalek.provider
      (.keygen .sign ⟨"keys"⟩ "id" (some ⟨"keys/id.key"⟩) true) : Console Entropy Nat).run
        seededDrawer).map (Prod.map id fun w' => (w'.files.locate (keyPath ⟨"keys"⟩ "id"),
          w'.files.locate (pubPath ⟨"keys"⟩ "id"))) =
        .ok (0, .ok ["keys", "id.key"], .ok ["keys", "id.pub"]) := by decide +kernel
  obtain ⟨w', hrun, hlocated⟩ := exists_of_map_eq_ok hends
  obtain ⟨hkey, hpub⟩ := Prod.mk.inj hlocated
  obtain ⟨sk, pk, hmade⟩ := hmakes _ _ _ _ _ hrun
  obtain ⟨hhalves, hsigns⟩ :=
    hreal (.standard .reduced) (.standard .any) .dalek seededDrawer w' ⟨sk⟩ ⟨pk⟩ hmade
  have hread : seededDrawer.files.keyAt Size.seed ⟨"keys/id.key"⟩ = .ok (.replicate 32 7) := by
    decide +kernel
  obtain ⟨loc, loc', hpair, -⟩ := hmade.stored
  obtain rfl := Except.ok.inj (hkey.symm.trans hpair.key_located)
  obtain rfl := Except.ok.inj (hpub.symm.trans hpair.pub.located)
  have hseed := (hhalves.first_read _ rfl).2 _ hread
  exact ⟨w', ⟨sk⟩, ⟨pk⟩, hrun, (hpair.key (by decide)).file, hpair.pub.file,
    congrArg SignSeed.mk hseed.symm, hhalves.rest_eq, hsigns⟩

/-- The name of the public key is a link to the secret key. -/
def linkedDrawer : World StandIn.State where
  provider := {}
  files := ⟨[(["keys"], .directory), (["keys", "id.key"], .file [] 0o600)],
    [(["keys", "id.pub"], ⟨"id.key"⟩)]⟩

/-- The name of the secret key is a link to where nothing is. -/
def danglingDrawer : World StandIn.State where
  provider := {}
  files := ⟨[(["keys"], .directory)], [(["keys", "id.key"], ⟨"other"⟩)]⟩

/-- A seed, and nothing else. -/
def bareSeed : World Entropy where
  provider := ⟨fun _ => 0, 0⟩
  files := ({} : Tree).put ["seed"] (.file (KeyText.encode (List.replicate 32 7)) 0o644)

/-- Links may leave the public key, for all to read, in the place of the secret one, which is then
nowhere, or bring the secret key to a name that was not asked for. And without links, a directory
may come that is on the way to neither file. -/
theorem pairs_led_astray :
    (∃ w', (Command.exit StandIn.provider (.keygen .box ⟨"keys"⟩ "id" none true) :
        Console StandIn.State Nat).run linkedDrawer = .ok (0, w') ∧
      w'.files.locate (keyPath ⟨"keys"⟩ "id") = .ok ["keys", "id.key"] ∧
      w'.files.get? ["keys", "id.key"] =
        some (.file (KeyText.encode (List.replicate 32 0x5b)) publicMode) ∧
      w'.files.get? ["keys", "id.pub"] = none) ∧
    (∃ w', (Command.exit StandIn.provider (.keygen .box ⟨"keys"⟩ "id" none false) :
        Console StandIn.State Nat).run danglingDrawer = .ok (0, w') ∧
      danglingDrawer.files.get? ["keys", "other"] = none ∧
      w'.files.get? ["keys", "other"] =
        some (.file (KeyText.encode (List.replicate 32 1)) secretMode)) ∧
    ∃ w', (Command.exit ProviderChoice.dalek.provider
        (.keygen .sign ⟨"x/.."⟩ "id" (some ⟨"seed"⟩) false) : Console Entropy Nat).run bareSeed =
          .ok (0, w') ∧
      w'.files.locate (keyPath ⟨"x/.."⟩ "id") = .ok ["id.key"] ∧
      bareSeed.files.get? ["x"] = none ∧ w'.files.get? ["x"] = some .directory := by
  refine ⟨?_, ?_, ?_⟩
  · have hends : ((Command.exit StandIn.provider (.keygen .box ⟨"keys"⟩ "id" none true) :
        Console StandIn.State Nat).run linkedDrawer).map (Prod.map id fun w' =>
          (w'.files.locate (keyPath ⟨"keys"⟩ "id"), w'.files.get? ["keys", "id.key"],
            w'.files.get? ["keys", "id.pub"])) =
        .ok (0, .ok ["keys", "id.key"],
          some (.file (KeyText.encode (List.replicate 32 0x5b)) publicMode), none) := by
      decide +kernel
    obtain ⟨w', hrun, hseen⟩ := exists_of_map_eq_ok hends
    obtain ⟨hlocated, hentries⟩ := Prod.mk.inj hseen
    obtain ⟨hkey, hpub⟩ := Prod.mk.inj hentries
    exact ⟨w', hrun, hlocated, hkey, hpub⟩
  · have hends : ((Command.exit StandIn.provider (.keygen .box ⟨"keys"⟩ "id" none false) :
        Console StandIn.State Nat).run danglingDrawer).map (Prod.map id fun w' =>
          w'.files.get? ["keys", "other"]) =
        .ok (0, some (.file (KeyText.encode (List.replicate 32 1)) secretMode)) := by
      decide +kernel
    obtain ⟨w', hrun, hother⟩ := exists_of_map_eq_ok hends
    exact ⟨w', hrun, rfl, hother⟩
  · have hends : ((Command.exit ProviderChoice.dalek.provider
        (.keygen .sign ⟨"x/.."⟩ "id" (some ⟨"seed"⟩) false) : Console Entropy Nat).run
          bareSeed).map (Prod.map id fun w' =>
            (w'.files.locate (keyPath ⟨"x/.."⟩ "id"), w'.files.get? ["x"])) =
        .ok (0, .ok ["id.key"], some .directory) := by decide +kernel
    obtain ⟨w', hrun, hseen⟩ := exists_of_map_eq_ok hends
    obtain ⟨hlocated, hdirectory⟩ := Prod.mk.inj hseen
    exact ⟨w', hrun, hlocated, rfl, hdirectory⟩

end Strongbox
