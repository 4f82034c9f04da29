import Strongbox.Proofs.Guard.Operation
import Strongbox.Proofs.Provider.Boxes
import Strongbox.Proofs.Provider.Hashing
import Strongbox.Proofs.Provider.Signatures

/-! # The real providers are interchangeable

Over the same primitives, both real providers follow one cipher, one signature scheme and
one hash. What they do differently on their own, the guards even out. -/

namespace Strongbox

open Guard

/-- Both actions end, with the same value. -/
def Action.EndAlike {σ τ α : Type} (x : Action σ α) (s : Session σ) (y : Action τ α)
    (t : Session τ) : Prop := ∃ a, x.Ends s a ∧ y.Ends t a

/-! ## Operation by operation -/

variable (p : Primitives) (s t : Session Entropy)

/-- Two streams end alike, unless the one that counts bytes leaves its range. -/
theorem hashStream_endAlike (state : Bytes) (chunks : List Bytes)
    (hbelow : Size.hashState ≤ state.length → chunks.flatten.length < 2 ^ 128) :
    (hashStream (Joined.provider p) state chunks).EndAlike s
      (hashStream (Split.provider p) state chunks) t := by
  by_cases hsmall : state.length < Size.hashState
  · exact ⟨_, ⟨_, hashStream_run_of_small (Joined.provider p) chunks s hsmall⟩,
      ⟨_, hashStream_run_of_small (Split.provider p) chunks t hsmall⟩⟩
  · have hstate := Nat.le_of_not_lt hsmall
    exact ⟨_, (Joined.hashes p).hashStream_ends trivial hstate trivial,
      (Split.hashes p).hashStream_ends trivial hstate (hbelow hstate)⟩

/-- Agreement neither draws bytes nor depends on the provider. -/
theorem agree_answers (peer : BoxPublicKey) (secret : BoxSecretKey) :
    ∃ answer, ∀ q, (Joined.agree p peer secret).run q = .ok (answer, q) ∧
      (Split.agree p peer secret).run q = .ok (answer, q) := ⟨_, fun _ => ⟨rfl, rfl⟩⟩

theorem agree_endAlike (peer : BoxPublicKey) (secret : BoxSecretKey) :
    (agree (Joined.provider p) peer secret).EndAlike s
      (agree (Split.provider p) peer secret) t := by
  obtain ⟨answer, hanswer⟩ := agree_answers p peer secret
  have hjoined : ((Joined.provider p).agree peer secret).run s.provider =
      .ok (answer, s.provider) := (hanswer s.provider).1
  have hsplit : ((Split.provider p).agree peer secret).run t.provider =
      .ok (answer, t.provider) := (hanswer t.provider).2
  refine ⟨reported answer, ?_, ?_⟩
  · rw [Action.Ends, agree_run, hjoined]
    exact ⟨_, rfl⟩
  · rw [Action.Ends, agree_run, hsplit]
    exact ⟨_, rfl⟩

theorem operation_endAlike (op : Operation) (hbelow : op.StaysBelow (2 ^ 128)) :
    (op.run (Joined.provider p)).EndAlike s (op.run (Split.provider p)) t := by
  cases op with
  | signingKeysOfSeed seed =>
      exact ⟨_, (Joined.signsBy p).signingKeysOfSeed_ends trivial seed,
        (Split.signsBy p).signingKeysOfSeed_ends trivial seed⟩
  | agree peer secret => exact agree_endAlike p s t peer secret
  | sealBox out padded nonce key =>
      exact ⟨_, (Joined.sealsBy p).sealBox_ends trivial out padded nonce key,
        (Split.sealsBy p).sealBox_ends trivial out padded nonce key⟩
  | sealBoxInPlace buf nonce key =>
      exact ⟨_, (Joined.sealsBy p).sealBoxInPlace_ends trivial buf nonce key,
        (Split.sealsBy p).sealBoxInPlace_ends trivial buf nonce key⟩
  | unsealBox out boxed nonce key =>
      exact ⟨_, (Joined.sealsBy p).unsealBox_ends trivial out boxed nonce key,
        (Split.sealsBy p).unsealBox_ends trivial out boxed nonce key⟩
  | unsealBoxInPlace buf nonce key =>
      exact ⟨_, (Joined.sealsBy p).unsealBoxInPlace_ends trivial buf nonce key,
        (Split.sealsBy p).unsealBoxInPlace_ends trivial buf nonce key⟩
  | sign out message secret =>
      exact ⟨_, (Joined.signsBy p).sign_ends trivial out message secret,
        (Split.signsBy p).sign_ends trivial out message secret⟩
  | signInPlace buf secret =>
      exact ⟨_, (Joined.signsBy p).signInPlace_ends trivial buf secret,
        (Split.signsBy p).signInPlace_ends trivial buf secret⟩
  | signDetached message secret =>
      exact ⟨_, (Joined.signsBy p).signDetached_ends trivial message secret,
        (Split.signsBy p).signDetached_ends trivial message secret⟩
  | openSigned out signed pk =>
      exact ⟨_, (Joined.signsBy p).openSigned_ends trivial out signed pk,
        (Split.signsBy p).openSigned_ends trivial out signed pk⟩
  | verifyDetached signature message pk =>
      exact ⟨_, (Joined.signsBy p).verifyDetached_ends trivial signature message pk,
        (Split.signsBy p).verifyDetached_ends trivial signature message pk⟩
  | digest message =>
      exact ⟨_, (Joined.hashes p).digest_ends trivial message,
        (Split.hashes p).digest_ends trivial message⟩
  | hashStream state chunks => exact hashStream_endAlike p s t state chunks hbelow

/-- Every operation ends alike on both real providers: with the same value or error, and
the same bytes in the caller's buffer. The one exception is a stream whose bytes cannot be
counted in 128 bits, which one provider does not survive. -/
theorem providers_interchangeable (op : Operation) :
    (op.StaysBelow (2 ^ 128) →
      (op.run (Joined.provider p)).EndAlike s (op.run (Split.provider p)) t) ∧
    (¬ op.StaysBelow (2 ^ 128) →
      (op.run (Split.provider p)).run t = .error .counterOverflow) := by
  refine ⟨operation_endAlike p s t op, fun hover => ?_⟩
  cases op with
  | hashStream state chunks =>
      simp only [Operation.StaysBelow, not_forall, Nat.not_lt] at hover
      obtain ⟨hstate, hlong⟩ := hover
      exact Split.hashStream_overflows p t hstate hlong
  | _ => exact absurd trivial hover

/-- A stream of two chunks stays below the bound. -/
theorem short_stream_endAlike :
    ((Operation.hashStream (Bytes.zeros 208) [[1, 2], [3]]).run
        (Joined.provider (.standard .any))).EndAlike ⟨⟨fun _ => 0, 0⟩, []⟩
      ((Operation.hashStream (Bytes.zeros 208) [[1, 2], [3]]).run
        (Split.provider (.standard .any))) ⟨⟨fun _ => 0, 0⟩, []⟩ :=
  (providers_interchangeable (.standard .any) ⟨⟨fun _ => 0, 0⟩, []⟩ ⟨⟨fun _ => 0, 0⟩, []⟩
    (.hashStream (Bytes.zeros 208) [[1, 2], [3]])).1 fun _ => by decide

end Strongbox
