import Strongbox.Proofs.Guard.Reliable
import Strongbox.Proofs.Provider.Hashing

/-! # The real providers answer

A real provider answers every call, on buffers of any length. The one exception is an update
that leaves the range of the counter of bytes. -/

namespace Strongbox

open Guard

/-- The step never breaks off. -/
def Step.Answers {σ α : Type} (step : Step σ α) : Prop :=
  ∀ q, Outcome (fun _ => True) (fun _ => False) (step.run q)

theorem InPlace.answers_onBytes {σ α : Type} (step : {n : Nat} → InPlace σ n α) {buf : Bytes}
    (h : Step.Answers (step (.ofList buf))) : Step.Answers (InPlace.onBytes step buf) :=
  fun q => InPlace.outcome_onBytes_iff.mpr (h q)

namespace Split

variable (p : Primitives)

theorem call_answers {c : Call} (h : ∀ state chunk, c ≠ .hashUpdate state chunk) :
    Step.Answers ((provider p).perform c) := by
  cases c with
  | sealInPlace buf nonce key =>
      refine InPlace.answers_onBytes (sealInPlace p nonce key) fun q => ?_
      rw [sealInPlace]
      split <;> trivial
  | unsealInPlace buf nonce key =>
      refine InPlace.answers_onBytes (unsealInPlace p nonce key) fun q => ?_
      simp only [unsealInPlace]
      split
      · trivial
      · split <;> trivial
  | signInPlace buf secret =>
      refine InPlace.answers_onBytes (signInPlace p secret) fun q => ?_
      rw [signInPlace]
      split
      · trivial
      · split <;> trivial
  | openSigned out signed pk =>
      refine InPlace.answers_onBytes (openSigned p signed pk) fun q => ?_
      rw [openSigned]
      split
      · trivial
      · simp only [verifyDetached, StateT.run_bind, StateT.run_pure, pure_eq_ok, ok_bind]
        split <;> trivial
  | hashInit state =>
      refine InPlace.answers_onBytes hashInit fun q => ?_
      rw [hashInit]
      split <;> trivial
  | hashUpdate state chunk => exact absurd rfl (h state chunk)
  | hashFinal state =>
      refine InPlace.answers_onBytes (hashFinal p) fun q => ?_
      rw [hashFinal]
      split <;> trivial
  | _ => exact fun _ => trivial

/-- A stored midstate counts at most `k` bytes. -/
def CountsAtMost (k : Nat) (state : Bytes) : Prop :=
  ∃ (s : Sha512.Midstate) (back : Bytes), state = s.toBytes.toList ++ back ∧ s.count.toNat ≤ k

theorem countsAtMost_store {n k : Nat} {buf : ByteVec n} {s : Sha512.Midstate}
    (hroom : Size.hashState ≤ n) (hcount : s.count.toNat ≤ k) :
    CountsAtMost k (store buf s).toList :=
  ⟨s, _, toList_store buf s hroom, hcount⟩

theorem outcome_hashInit {state : Bytes} (q : Entropy) (hroom : Size.hashState ≤ state.length) :
    Outcome (fun r => r.1.1 = .ok () → CountsAtMost 0 r.1.2) (fun _ => False)
      ((InPlace.onBytes hashInit state).run q) := by
  have hzero : Sha512.Midstate.initial.count.toNat ≤ 0 := Nat.le_of_eq BitVec.toNat_zero
  rw [InPlace.outcome_onBytes_iff, hashInit_run _ q hroom]
  intro _
  dsimp only
  exact countsAtMost_store hroom hzero

theorem outcome_hashUpdate {k : Nat} {state chunk : Bytes} (q : Entropy)
    (hroom : Size.hashState ≤ state.length) (hcounts : CountsAtMost k state)
    (hfits : k + chunk.length < 2 ^ 128) :
    Outcome (fun r => CountsAtMost (k + chunk.length) r.1.2) (fun _ => False)
      ((InPlace.onBytes (hashUpdate p chunk) state).run q) := by
  obtain ⟨s, back, hstate, hcount⟩ := hcounts
  have hload : load? (.ofList state) = some s := load?_of_front hstate
  rw [InPlace.outcome_onBytes_iff, hashUpdate_run p chunk q hload (by omega)]
  apply countsAtMost_store hroom
  rw [Sha512.Midstate.update_count, BitVec.toNat_add, BitVec.toNat_ofNat]
  exact Nat.le_trans (Nat.mod_le _ _) (Nat.add_le_add hcount (Nat.mod_le _ _))

/-- A stream of less than 2 ^ 128 bytes is answered throughout. -/
theorem reliable : Reliable (provider p) (· < 2 ^ 128) CountsAtMost where
  fits_of_le hle hfits := Nat.lt_of_le_of_lt hle hfits
  fed_of_le hle := fun ⟨s, back, hstate, hcount⟩ => ⟨s, back, hstate, Nat.le_trans hcount hle⟩
  call q _ hplain := by
    refine call_answers p ?_ q
    rintro state chunk rfl
    exact hplain trivial
  init q hroom := outcome_hashInit q hroom
  update q hroom hcounts hfits := outcome_hashUpdate p q hroom hcounts hfits
  final {_ state} q _ _ := call_answers p (c := .hashFinal state) nofun q

end Split

namespace Joined

variable (p : Primitives)

theorem call_answers (c : Call) : Step.Answers ((provider p).perform c) := by
  cases c with
  | sealInPlace buf nonce key =>
      refine InPlace.answers_onBytes (sealInPlace p nonce key) fun q => ?_
      rw [sealInPlace]
      split <;> trivial
  | unsealInPlace buf nonce key =>
      refine InPlace.answers_onBytes (unsealInPlace p nonce key) fun q => ?_
      simp only [unsealInPlace]
      split
      · trivial
      · split <;> trivial
  | signInPlace buf secret =>
      refine InPlace.answers_onBytes (signInPlace p secret) fun q => ?_
      rw [signInPlace]
      split
      · trivial
      · split <;> trivial
  | openSigned out signed pk =>
      refine InPlace.answers_onBytes (openSigned p signed pk) fun q => ?_
      simp only [openSigned]
      split
      · trivial
      · split <;> trivial
  | hashInit state =>
      refine InPlace.answers_onBytes hashInit fun q => ?_
      rw [hashInit]
      split <;> trivial
  | hashUpdate state chunk =>
      refine InPlace.answers_onBytes (hashUpdate p chunk) fun q => ?_
      rw [hashUpdate]
      split <;> trivial
  | hashFinal state =>
      refine InPlace.answers_onBytes (hashFinal p) fun q => ?_
      rw [hashFinal]
      split <;> trivial
  | _ => exact fun _ => trivial

/-- The counter of bits wraps, so streams of any length are answered. -/
theorem reliable : Reliable (provider p) (fun _ => True) (fun _ _ => True) where
  fits_of_le _ _ := trivial
  fed_of_le _ _ := trivial
  call {c} q _ _ := call_answers p c q
  init {state} q _ := (call_answers p (.hashInit state) q).imp (fun _ _ _ => trivial) fun _ => id
  update {_ state chunk} q _ _ _ := call_answers p (.hashUpdate state chunk) q
  final {_ state} q _ _ := call_answers p (.hashFinal state) q

end Joined

end Strongbox
