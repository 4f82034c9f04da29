import Strongbox.Proofs.Guard.Equations
import Strongbox.Provider.Split
import Strongbox.Provider.StandIn

/-! # What a rejection leaves behind

An opening that the provider rejects wipes the part of the buffer it worked on and
nothing behind it. An input too short for its tag or signature is rejected before any
of this, and its buffer keeps all it held. -/

namespace Strongbox.Guard

variable {σ : Type}

/-- A buffer with its first `n` bytes zeroed, as far as there are so many. -/
def wipedFront (n : Nat) (before : Bytes) : Bytes :=
  Bytes.zeros (min n before.length) ++ before.drop n

theorem wipedFront_of_le {n : Nat} {before : Bytes} (h : n ≤ before.length) :
    wipedFront n before = Bytes.zeros n ++ before.drop n := by
  rw [wipedFront, Nat.min_eq_left h]

/-- Whether a rejected input of at least `least` bytes is wiped out of a buffer that
held `before`, and a shorter one not. -/
structure WipedUnlessShort (least : Nat) (input before after : Bytes) : Prop where
  wiped_iff : after = wipedFront input.length before ↔
    least ≤ input.length ∨ wipedFront input.length before = before
  untouched : input.length < least → after = before

theorem wipedUnlessShort_of_short {least : Nat} {input before : Bytes}
    (h : input.length < least) : WipedUnlessShort least input before before := by
  refine ⟨?_, fun _ => rfl⟩
  constructor
  · intro heq
    exact Or.inr heq.symm
  · intro hor
    rcases hor with hle | heq
    · exact absurd h (Nat.not_lt.mpr hle)
    · exact heq.symm

theorem wipedUnlessShort_of_wiped {least : Nat} {input before : Bytes}
    (h : least ≤ input.length) (hfits : input.length ≤ before.length) :
    WipedUnlessShort least input before
      (Bytes.zeros input.length ++ before.drop input.length) := by
  refine ⟨?_, fun hlt => absurd hlt (Nat.not_lt.mpr h)⟩
  constructor
  · intro _
    exact Or.inl h
  · intro _
    exact (wipedFront_of_le hfits).symm

theorem buffer_settle_of_error {β : Type} {value : β} {wipe : Bytes → Bytes} {rest : Bytes}
    {begun failed : Event} {log : List Event} {r : (Answer Unit × Bytes) × σ} {e : CryptoError}
    (h : (settle value wipe rest begun failed log r).1.result = .error e) :
    (settle value wipe rest begun failed log r).1.buffer = wipe r.1.2 ++ rest := by
  obtain ⟨⟨answer, bytes⟩, p⟩ := r
  cases answer with
  | ok u => simp [settle] at h
  | error e => rfl

theorem buffer_settleOpened_of_error {length : Nat} {rest : Bytes} {failed : Event}
    {log : List Event} {r : (Answer Nat × Bytes) × σ} {e : CryptoError}
    (h : (settleOpened length rest failed log r).1.result = .error e) :
    (settleOpened length rest failed log r).1.buffer =
      Bytes.zeros r.1.2.length ++ rest := by
  by_cases hlength : r.1.1.toOption = some length
  · simp [settleOpened, hlength] at h
  · simp [settleOpened, hlength]

theorem unsealBox_failure (P : Provider σ) {out boxed : Bytes} {nonce : Nonce}
    {key : SymmetricKey} {s : Session σ} {w : Written Unit}
    (h : (unsealBox P out boxed nonce key).Ends s w) (hfail : w.result = .error .failure) :
    WipedUnlessShort Size.padding boxed out w.buffer := by
  by_cases hshort : boxed.length < Size.padding
  · have hw := (Action.ends_iff_of_run (unsealBox_run_of_short P nonce key s hshort)).mp h
    rw [hw]
    exact wipedUnlessShort_of_short hshort
  · have hlong := Nat.le_of_not_lt hshort
    by_cases hsmall : out.length < boxed.length
    · have hw := (Action.ends_iff_of_run
        (unsealBox_run_of_small P nonce key s hlong hsmall)).mp h
      rw [hw] at hfail
      cases hfail
    · have hfits := Nat.le_of_not_lt hsmall
      obtain ⟨r, hr, rfl⟩ := h.of_map (unsealBox_run P nonce key s hlong hfits)
      rw [buffer_settle_of_error hfail, wipeAll, InPlace.length_of_run_onBytes hr]
      exact wipedUnlessShort_of_wiped hlong hfits

theorem unsealBoxInPlace_failure (P : Provider σ) {buf : Bytes} {nonce : Nonce}
    {key : SymmetricKey} {s : Session σ} {w : Written Unit}
    (h : (unsealBoxInPlace P buf nonce key).Ends s w) (hfail : w.result = .error .failure) :
    WipedUnlessShort Size.padding buf buf w.buffer := by
  by_cases hshort : buf.length < Size.padding
  · have hw := (Action.ends_iff_of_run
      (unsealBoxInPlace_run_of_short P nonce key s hshort)).mp h
    rw [hw]
    exact wipedUnlessShort_of_short hshort
  · have hlong := Nat.le_of_not_lt hshort
    obtain ⟨r, hr, rfl⟩ := h.of_map (unsealBoxInPlace_run P nonce key s hlong)
    have hwiped := wipedUnlessShort_of_wiped hlong (Nat.le_refl buf.length)
    rw [List.drop_length] at hwiped
    rwa [buffer_settle_of_error hfail, wipeAll, InPlace.length_of_run_onBytes hr]

theorem openSigned_failure (P : Provider σ) {out signed : Bytes} {pk : SignPublicKey}
    {s : Session σ} {w : Written Nat}
    (h : (openSigned P out signed pk).Ends s w) (hfail : w.result = .error .failure) :
    WipedUnlessShort Size.signature signed out w.buffer := by
  by_cases hsmall : out.length < signed.length
  · have hw := (Action.ends_iff_of_run (openSigned_run_of_small P pk s hsmall)).mp h
    rw [hw] at hfail
    cases hfail
  · have hfits := Nat.le_of_not_lt hsmall
    by_cases hshort : signed.length < Size.signature
    · have hw := (Action.ends_iff_of_run (openSigned_run_of_short P pk s hfits hshort)).mp h
      rw [hw]
      exact wipedUnlessShort_of_short hshort
    · have hlong := Nat.le_of_not_lt hshort
      obtain ⟨r, hr, rfl⟩ := h.of_map (openSigned_run P pk s hfits hlong)
      have hlength : r.1.2.length = signed.length := by
        rw [InPlace.length_of_run_onBytes hr, List.length_take, Nat.min_eq_left hfits]
      rw [buffer_settleOpened_of_error hfail, hlength]
      exact wipedUnlessShort_of_wiped hlong hfits

/-- Every rejected opening is wiped exactly where its input was long enough to be
looked at, or the region was zero already. Shorter inputs are always rejected, and
never touch the buffer. -/
theorem openings_wipe_unless_short (P : Provider σ) (s : Session σ) (nonce : Nonce)
    (key : SymmetricKey) (pk : SignPublicKey) (out input : Bytes) :
    (∀ w, (unsealBox P out input nonce key).Ends s w → w.result = .error .failure →
      WipedUnlessShort Size.padding input out w.buffer) ∧
    (∀ w, (unsealBoxInPlace P input nonce key).Ends s w → w.result = .error .failure →
      WipedUnlessShort Size.padding input input w.buffer) ∧
    (∀ w, (openSigned P out input pk).Ends s w → w.result = .error .failure →
      WipedUnlessShort Size.signature input out w.buffer) ∧
    (input.length < Size.padding →
      (unsealBox P out input nonce key).Ends s (.refuse .failure out) ∧
      (unsealBoxInPlace P input nonce key).Ends s (.refuse .failure input)) ∧
    (input.length < Size.signature → input.length ≤ out.length →
      (openSigned P out input pk).Ends s (.refuse .failure out)) := by
  refine ⟨?_, ?_, ?_, ?_, ?_⟩
  · intro w h hfail
    exact unsealBox_failure P h hfail
  · intro w h hfail
    exact unsealBoxInPlace_failure P h hfail
  · intro w h hfail
    exact openSigned_failure P h hfail
  · intro hshort
    exact ⟨⟨_, unsealBox_run_of_short P nonce key s hshort⟩,
      ⟨_, unsealBoxInPlace_run_of_short P nonce key s hshort⟩⟩
  · intro hshort hfits
    exact ⟨_, openSigned_run_of_short P pk s hfits hshort⟩

/-- A box of 33 bytes that a failing provider rejects is wiped in front of the two
further bytes of the buffer. -/
theorem rejected_box_wiped :
    WipedUnlessShort Size.padding (List.replicate 33 1) (List.replicate 35 7)
      (Bytes.zeros 33 ++ [7, 7]) :=
  (openings_wipe_unless_short StandIn.provider ⟨{ failing := true }, []⟩ ⟨.zeros 24⟩
    ⟨.zeros 32⟩ ⟨.zeros 32⟩ (List.replicate 35 7) (List.replicate 33 1)).1
      ⟨.error .failure, Bytes.zeros 33 ++ [7, 7]⟩ ⟨_, rfl⟩ rfl

/-- One byte is too short for either format: it is rejected, and what stood in the
buffer stays. -/
theorem short_input_not_wiped :
    (¬ ∀ w, (unsealBox (Split.provider (.standard .any)) [0x77, 0x77] [0xab] ⟨.zeros 24⟩
        ⟨.zeros 32⟩).Ends ⟨⟨fun _ => 0, 0⟩, []⟩ w → w.result = .error .failure →
          w.buffer = wipedFront 1 [0x77, 0x77]) ∧
    (¬ ∀ w, (unsealBoxInPlace (Split.provider (.standard .any)) [0xab] ⟨.zeros 24⟩
        ⟨.zeros 32⟩).Ends ⟨⟨fun _ => 0, 0⟩, []⟩ w → w.result = .error .failure →
          w.buffer = wipedFront 1 [0xab]) ∧
    (¬ ∀ w, (openSigned (Split.provider (.standard .any)) [0x77, 0x77] [0xab]
        ⟨.zeros 32⟩).Ends ⟨⟨fun _ => 0, 0⟩, []⟩ w → w.result = .error .failure →
          w.buffer = wipedFront 1 [0x77, 0x77]) := by
  refine ⟨?_, ?_, ?_⟩
  · intro h
    exact absurd (h _ ⟨_, unsealBox_run_of_short _ _ _ _ (by decide)⟩ rfl) (by decide)
  · intro h
    exact absurd (h _ ⟨_, unsealBoxInPlace_run_of_short _ _ _ _ (by decide)⟩ rfl) (by decide)
  · intro h
    exact absurd (h _ ⟨_, openSigned_run_of_short _ _ _ (by decide) (by decide)⟩ rfl)
      (by decide)

end Strongbox.Guard
