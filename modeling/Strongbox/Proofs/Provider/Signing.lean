import Strongbox.Proofs.Guard.Signing
import Strongbox.Proofs.Guard.Verifying
import Strongbox.Proofs.Provider.Signatures
import Strongbox.Proofs.Provider.StandIn

/-! # Signing and verifying with every provider

The stand-in follows a weak scheme, or one that refuses everything. With the real providers
a secret key signs exactly if it is the one made of its seed. -/

namespace Strongbox

open Guard

/-! ## The stand-in -/

namespace StandIn

/-- The weak scheme, which takes any secret key. Switched to fail, the stand-in signs and
accepts nothing. -/
def scheme (failing : Bool) : SignatureScheme where
  publicKey seed := ⟨publicBytes seed.toByteVec⟩
  sign? secret message :=
    if failing then none else some (weakSignature secret.publicKey message)
  accepts pk message signature := !failing && weakSignature pk message = signature

theorem signDetached_run (message : Bytes) (secret : SignSecretKey) (q : State) :
    (signDetached message secret).run q =
      .ok ((scheme q.failing).detachedReply secret message, q.counted) := by
  cases h : q.failing with
  | false =>
      rw [signDetached, asking_run _ h]
      rfl
  | true =>
      rw [signDetached, asking, entering_run, if_pos h]
      rfl

theorem signInPlace_run_scheme (secret : SignSecretKey) {front : Bytes} (message : Bytes)
    (q : State) (hfront : front.length = Size.signature) :
    (InPlace.onBytes (signInPlace secret) (front ++ message)).run q =
      .ok ((scheme q.failing).signReply secret front message, q.counted) := by
  cases h : q.failing with
  | false => exact signInPlace_run secret message h hfront
  | true =>
      rw [InPlace.run_onBytes, signInPlace, working_run_of_failing _ _ h]
      rfl

theorem signsAlike (failing : Bool) :
    SignsAlike provider (fun q => q.failing = failing) State.counted (scheme failing) where
  detached message secret hready := by
    rw [← hready]
    exact signDetached_run message secret _
  inPlace secret _ message hready hfront := by
    rw [← hready]
    exact signInPlace_run_scheme secret message _ hfront

theorem opens_scheme_iff {signed : Bytes} (pk : SignPublicKey)
    (hlong : Size.signature ≤ signed.length) :
    (scheme false).opens pk signed = true ↔
      (weakSignature pk (signed.drop Size.signature)).toList = signed.take Size.signature := by
  have hopens : (scheme false).opens pk signed = true ↔
      weakSignature pk (signed.drop Size.signature) = ⟨.ofFront Size.signature signed⟩ := by
    simp [SignatureScheme.opens, scheme]
  rw [hopens, ← ByteVec.toList_ofFront hlong, ← ByteVec.ext_iff]
  constructor
  · intro h
    rw [h]
  · intro h
    rw [← h]

/-- The signature in front of a message is compared as one apart from it is. -/
theorem openReply_eq_scheme {signed : Bytes} (out : Bytes) (pk : SignPublicKey)
    (hlong : Size.signature ≤ signed.length) :
    openReply false out signed pk =
      (scheme false).openReply signed out (List.replicate out.length 0xee) pk := by
  have hiff := opens_scheme_iff pk hlong
  by_cases h : (scheme false).opens pk signed = true
  · rw [openReply, if_pos (hiff.mp h), SignatureScheme.openReply, if_pos h, List.length_drop]
    rfl
  · rw [openReply, if_neg (fun heq => h (hiff.mpr heq)), SignatureScheme.openReply, if_neg h]

theorem signsBy :
    SignsBy provider (fun q => q.failing = false ∧ q.misreporting = false) (scheme false) where
  keys {q} seed hready := by
    refine ⟨q.counted, ?_⟩
    change (signingKeysOfSeed seed).run q = _
    rw [signingKeysOfSeed, asking_run _ hready.1]
    rfl
  detached message secret hready :=
    ⟨_, (signsAlike false).detached message secret hready.1⟩
  inPlace secret _ message hready hfront :=
    ⟨_, (signsAlike false).inPlace secret message hready.1 hfront⟩
  verifies {q} signature message pk hready := by
    refine ⟨q.counted, ?_⟩
    change (verifyDetached signature message pk).run q = _
    rw [verifyDetached, asking_run _ hready.1]
    simp [scheme]
  opens {q signed out} pk hready hlong hout := by
    have hrun := openSigned_run pk hready.1 hlong hout
    rw [hready.2, openReply_eq_scheme out pk hlong] at hrun
    exact ⟨_, _, hrun⟩

end StandIn

/-! ## The real providers -/

theorem Primitives.signsOwnKeys (p : Primitives) : p.scheme.SignsOwnKeys := by
  intro secret message
  by_cases h : p.isWellFormed secret
  · have hown : p.publicKey secret.seed = secret.publicKey := of_decide_eq_true h
    simp [Primitives.scheme, h, hown]
  · have hforeign : ¬ p.publicKey secret.seed = secret.publicKey := fun heq =>
      h (decide_eq_true heq)
    simp [Primitives.scheme, h, Ne.symm hforeign]

namespace Split

variable (p : Primitives)

theorem signsAlike : SignsAlike (provider p) (fun _ => True) id p.scheme where
  detached message secret _ := signDetached_run p message secret _
  inPlace secret _ message _ hfront := signInPlace_run p secret message _ hfront

end Split

namespace Joined

variable (p : Primitives)

theorem signsAlike : SignsAlike (provider p) (fun _ => True) id p.scheme where
  detached message secret _ := signDetached_run p message secret _
  inPlace secret _ message _ hfront := signInPlace_run p secret message _ hfront

end Joined

/-! ## The three ways to sign -/

/-- With every provider the three ways to sign come to one signature, or are all refused,
with any secret key and whatever the buffers held. The stand-in may be switched to fail. -/
theorem ways_to_sign_agree (secret : SignSecretKey) (message : Bytes) :
    (∀ s : Session StandIn.State, SignsThreeWays StandIn.provider s s.provider.counted
      (StandIn.scheme s.provider.failing) secret message) ∧
    (∀ (p : Primitives) (s : Session Entropy),
      SignsThreeWays (Split.provider p) s s.provider p.scheme secret message) ∧
    (∀ (p : Primitives) (s : Session Entropy),
      SignsThreeWays (Joined.provider p) s s.provider p.scheme secret message) := by
  refine ⟨?_, ?_, ?_⟩
  · intro s
    exact (StandIn.signsAlike s.provider.failing).signsThreeWays rfl secret message
  · intro p s
    exact (Split.signsAlike p).signsThreeWays trivial secret message
  · intro p s
    exact (Joined.signsAlike p).signsThreeWays trivial secret message

/-- A message of three bytes, with bytes left over in both buffers. -/
theorem dirty_buffers_signed_alike :
    (sign StandIn.provider (List.replicate 70 7) [1, 2, 3] ⟨.zeros 64⟩).Ends ⟨{}, []⟩
      ⟨.ok 67, (StandIn.weakSignature (SignSecretKey.publicKey ⟨.zeros 64⟩) [1, 2, 3]).toList ++
        [1, 2, 3] ++ [7, 7, 7]⟩ ∧
    (signDetached StandIn.provider [1, 2, 3] ⟨.zeros 64⟩).Ends ⟨{}, []⟩
      (.ok (StandIn.weakSignature (SignSecretKey.publicKey ⟨.zeros 64⟩) [1, 2, 3])) ∧
    (signInPlace StandIn.provider (List.replicate 64 9 ++ [1, 2, 3]) ⟨.zeros 64⟩).Ends
      ⟨{ failing := true }, []⟩ ⟨.error .failure, Bytes.zeros 64 ++ [1, 2, 3]⟩ := by
  obtain ⟨hstandIn, -, -⟩ := ways_to_sign_agree ⟨.zeros 64⟩ [1, 2, 3]
  have hreserved : (List.replicate 64 9 : Bytes).length = Size.signature := rfl
  have hroom : [1, 2, 3].length + Size.signature ≤ (List.replicate 70 7 : Bytes).length := by
    decide
  refine ⟨⟨_, (hstandIn ⟨{}, []⟩).into _ hroom⟩, ⟨_, (hstandIn ⟨{}, []⟩).detached⟩, ?_⟩
  exact ⟨_, (hstandIn ⟨{ failing := true }, []⟩).inPlace _ hreserved⟩

/-! ## Keys that sign -/

/-- A real provider signs with a secret key exactly if the key's public half is the one that
its seed determines, which holds of every key that is made of a seed. -/
theorem signs_with_made_keys (p : Primitives) (s t : Session Entropy) :
    SignsWithMadeKeys (Split.provider p) s t p.publicKey ∧
      SignsWithMadeKeys (Joined.provider p) s t p.publicKey := by
  constructor
  · exact (Split.signsBy p).signsWithMadeKeys trivial trivial p.signsOwnKeys
  · exact (Joined.signsBy p).signsWithMadeKeys trivial trivial p.signsOwnKeys

theorem ByteVec.map_add_one_ne (v : ByteVec 32) : v.map (· + 1) ≠ v := by
  intro h
  have hbytes : v.toList.map (· + 1) = v.toList := congrArg ByteVec.toList h
  cases hv : v.toList with
  | nil =>
      have hlength := v.length_toList
      rw [hv] at hlength
      cases hlength
  | cons b bs =>
      rw [hv, List.map_cons, List.cons.injEq] at hbytes
      have hzero : (1 : UInt8) = 0 := by simpa using hbytes.1
      cases hzero

/-- The key made of a seed signs. With each byte of its public half one higher it does not. -/
theorem foreign_public_half_refused :
    (∃ signature, (signDetached (Split.provider (.standard .any)) [1, 2, 3]
      (.ofHalves ⟨.zeros 32⟩ (Ed25519.publicKey ⟨.zeros 32⟩))).Ends ⟨⟨fun _ => 0, 0⟩, []⟩
        (.ok signature)) ∧
    (signInPlace (Joined.provider (.standard .any)) (List.replicate 64 7 ++ [1, 2, 3])
      (.ofHalves ⟨.zeros 32⟩ ⟨(Ed25519.publicKey ⟨.zeros 32⟩).map (· + 1)⟩)).Ends
        ⟨⟨fun _ => 0, 0⟩, []⟩ ⟨.error .failure, Bytes.zeros 64 ++ [1, 2, 3]⟩ := by
  obtain ⟨hsplit, hjoined⟩ := signs_with_made_keys (.standard .any) ⟨⟨fun _ => 0, 0⟩, []⟩
    ⟨⟨fun _ => 0, 0⟩, []⟩
  constructor
  · rw [hsplit.detached_iff, hsplit.makes_iff, SignSecretKey.publicKey_ofHalves,
      SignSecretKey.seed_ofHalves]
    rfl
  · refine hjoined.inPlace_refused _ (List.replicate 64 7 ++ [1, 2, 3]) (by decide) ?_
    rw [hjoined.makes_iff, SignSecretKey.publicKey_ofHalves, SignSecretKey.seed_ofHalves]
    intro hown
    exact ByteVec.map_add_one_ne _ (congrArg SignPublicKey.toByteVec hown)

/-! ## The two ways to verify -/

/-- With every provider a signature is accepted in front of its message exactly if it is
accepted apart from it. -/
theorem ways_to_verify_agree (pk : SignPublicKey) :
    (∀ s t : Session StandIn.State, s.provider.failing = false →
      s.provider.misreporting = false → t.provider.failing = false →
      t.provider.misreporting = false → VerifiesAlike StandIn.provider s t pk) ∧
    (∀ (p : Primitives) (s t : Session Entropy), VerifiesAlike (Split.provider p) s t pk) ∧
    (∀ (p : Primitives) (s t : Session Entropy), VerifiesAlike (Joined.provider p) s t pk) := by
  refine ⟨?_, ?_, ?_⟩
  · intro s t hs hs' ht ht'
    exact StandIn.signsBy.verifiesAlike ⟨hs, hs'⟩ ⟨ht, ht'⟩ pk
  · intro p s t
    exact (Split.signsBy p).verifiesAlike trivial trivial pk
  · intro p s t
    exact (Joined.signsBy p).verifiesAlike trivial trivial pk

/-- A message of three bytes opens, and a string shorter than a signature does not. -/
theorem signed_message_opens :
    (openSigned StandIn.provider (List.replicate 70 7)
      ((StandIn.weakSignature ⟨.zeros 32⟩ [1, 2, 3]).toList ++ [1, 2, 3]) ⟨.zeros 32⟩).Ends
        ⟨{}, []⟩ ⟨.ok 3, [1, 2, 3] ++ List.replicate 67 7⟩ ∧
    (∃ after, (openSigned StandIn.provider (List.replicate 70 7) (List.replicate 63 0)
      ⟨.zeros 32⟩).Ends ⟨{}, []⟩ ⟨.error .failure, after⟩) := by
  obtain ⟨hstandIn, -, -⟩ := ways_to_verify_agree ⟨.zeros 32⟩
  have halike := hstandIn ⟨{}, []⟩ ⟨{ calls := 1 }, []⟩ rfl rfl rfl rfl
  have hlength : ((StandIn.weakSignature ⟨.zeros 32⟩ [1, 2, 3]).toList ++
      [1, 2, 3]).length = 67 := by simp
  have haccepted : (StandIn.scheme false).accepts ⟨.zeros 32⟩ [1, 2, 3]
      (StandIn.weakSignature ⟨.zeros 32⟩ [1, 2, 3]) = true := by simp [StandIn.scheme]
  obtain ⟨hlong, hopens, hmessage⟩ :=
    (StandIn.scheme false).opens_iff_exists.mpr ⟨_, rfl, haccepted⟩
  constructor
  · rw [halike.opens_iff (by rw [hlength]; decide), hlength, hmessage]
    refine ⟨?_, rfl, rfl⟩
    exact (StandIn.signsBy.verifiesApart_iff ⟨rfl, rfl⟩ _ _).mpr ⟨hlong, hopens⟩
  · apply halike.refused (by decide)
    rintro ⟨hlong, -⟩
    exact absurd hlong (by decide)

end Strongbox
