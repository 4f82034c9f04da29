import Strongbox.Proofs.Provider.DirectCalls

/-! # Hash states in a caller's bytes

Between two calls a hash state is nothing but 208 bytes of the caller's. The provider that counts
bytes finds a state in any 208 bytes, and no state has two forms: what is stored is found again,
and what is found and stored elsewhere is copied. -/

namespace Strongbox

open Sha512

/-! ## An empty chunk -/

namespace Sha512.Midstate

variable (f : Compress) (s : Midstate)

theorem absorbAll_nil : s.absorbAll f [] = s := by
  apply Midstate.ext
  · rfl
  · rfl
  · simp only [absorbAll, List.drop_nil, ByteVec.overwrite_nil]

/-- No bytes change nothing, the stale bytes of the block included. -/
theorem update_nil : s.update f [] = s := by
  have hcount : s.count + BitVec.ofNat 128 ([] : Bytes).length = s.count := BitVec.add_zero _
  by_cases hused : s.used = 0
  · simp only [update, hused, ite_true, hcount]
    exact absorbAll_nil f s
  · have hshort : s.used + ([] : Bytes).length < blockBytes := s.used_lt
    simp only [update, hused, ite_false, List.take_nil, hshort, ite_true, hcount,
      ByteVec.overwrite_nil]

end Sha512.Midstate

namespace Split

/-! ## States at the front of a buffer -/

section

variable {n : Nat}

/-- A state is found where every byte of it is in its place. -/
theorem load?_eq_some_iff {buf : ByteVec n} {s : Midstate} :
    load? buf = some s ↔ s.LiesIn buf.toList := by
  rw [Midstate.liesIn_iff]
  constructor
  · intro h
    have hlong := le_of_load? h
    rw [load?_of_le buf hlong, Option.some.injEq] at h
    rw [← h, Midstate.toBytes_ofBytes]
    rfl
  · intro hfront
    have hbuf : buf.toList = s.toBytes.toList ++ buf.toList.drop Size.hashState := by
      rw [← hfront, List.take_append_drop]
    exact load?_of_front hbuf

theorem liesIn_store (buf : ByteVec n) (s : Midstate) (h : Size.hashState ≤ n) :
    s.LiesIn (store buf s).toList := by
  rw [toList_store buf s h]
  exact s.liesIn_toBytes _

theorem load?_store (buf : ByteVec n) (s : Midstate) (h : Size.hashState ≤ n) :
    load? (store buf s) = some s :=
  load?_eq_some_iff.mpr (liesIn_store buf s h)

theorem take_of_load? {buf : ByteVec n} {s : Midstate} (h : load? buf = some s) :
    buf.toList.take Size.hashState = s.toBytes.toList :=
  Midstate.liesIn_iff.mp (load?_eq_some_iff.mp h)

/-- A state that is stored where it was found changes nothing. -/
theorem store_of_load? {buf : ByteVec n} {s : Midstate} (h : load? buf = some s) :
    store buf s = buf := by
  apply ByteVec.ext
  rw [toList_store buf s (le_of_load? h), ← take_of_load? h, List.take_append_drop]

/-- Two buffers hold the same state if they begin with the same bytes, and only then. -/
theorem load?_eq_iff {m : Nat} {a : ByteVec m} {b : ByteVec n} (h : Size.hashState ≤ n) :
    load? a = load? b ↔ a.toList.take Size.hashState = b.toList.take Size.hashState := by
  have hload := load?_of_le b h
  rw [hload, load?_eq_some_iff, Midstate.liesIn_iff, take_of_load? hload]

theorem hashUpdate_nil_run (p : Primitives) (buf : ByteVec n) (q : Entropy)
    (h : Size.hashState ≤ n) : (hashUpdate p [] buf).run q = .ok (⟨.ok (), buf⟩, q) := by
  have hload := load?_of_le buf h
  rw [hashUpdate_run p [] q hload (BitVec.isLt _), Midstate.update_nil, store_of_load? hload]

theorem sliced_hashUpdate_nil (p : Primitives) (buf : ByteVec n) (h : Size.hashState ≤ n) :
    Sliced.hashUpdate p [] buf = .ok (.ok (), buf) := by
  -- The call comes out as its slices do, so that one run of it shows what they come to.
  let q : Entropy := ⟨fun _ => 0, 0⟩
  have hrun : (lend (hashUpdate p []) buf).run q = .ok ((.ok (), buf), q) :=
    lend_run (hashUpdate_nil_run p buf q h)
  obtain ⟨r, hsliced, hcall⟩ := (hashUpdate_direct p [] buf fun s _ => s.count.isLt).ends
  rw [hcall, Except.ok.injEq, Prod.mk.injEq] at hrun
  rw [hsliced, hrun.1]

end

/-! ## From one buffer to another -/

/-- What the layout of states makes of two buffers that have room for a state. -/
structure Faithful (p : Primitives) {m n : Nat} (source : ByteVec m) (target : ByteVec n) :
    Prop where
  /-- Part by part, states are found, stored and updated within the bounds of the buffers. -/
  load_sliced : Sliced.load source = .ok (load? source)
  store_sliced : ∀ s, Sliced.store target s = .ok (store target s)
  update_sliced : Sliced.hashUpdate p [] target = .ok (.ok (), target)
  /-- Each byte of a stored state is in its place. -/
  liesIn_store : ∀ s : Midstate, s.LiesIn (store target s).toList
  /-- What is stored is found again. -/
  load_store : ∀ s, load? (store target s) = some s
  /-- What is found and stored elsewhere is copied, and the bytes behind it stay. -/
  store_load : ∃ s, load? source = some s ∧ (store target s).toList =
    source.toList.take Size.hashState ++ target.toList.drop Size.hashState
  /-- Equal states have equal bytes, and equal bytes are equal states. -/
  store_eq_iff : ∀ s t, s = t ↔
    (store source s).toList.take Size.hashState = (store target t).toList.take Size.hashState
  load_eq_iff : load? source = load? target ↔
    source.toList.take Size.hashState = target.toList.take Size.hashState
  /-- An empty chunk changes no byte. -/
  update_nil : ∀ q, ((provider p).hashUpdate [] target).run q = .ok (⟨.ok (), target⟩, q)

/-- States and strings of 208 bytes correspond one to one, wherever they stand. -/
theorem stored_states_faithful (p : Primitives) {m n : Nat} (source : ByteVec m)
    (target : ByteVec n) (hsource : Size.hashState ≤ m) (htarget : Size.hashState ≤ n) :
    Faithful p source target where
  load_sliced := load_eq_load? source
  store_sliced s := Sliced.store_eq target s htarget
  update_sliced := sliced_hashUpdate_nil p target htarget
  liesIn_store s := Split.liesIn_store target s htarget
  load_store s := load?_store target s htarget
  store_load := by
    have hload := load?_of_le source hsource
    refine ⟨_, hload, ?_⟩
    rw [toList_store target _ htarget, take_of_load? hload]
  store_eq_iff s t := by
    rw [← load?_eq_iff htarget, load?_store source s hsource, load?_store target t htarget,
      Option.some.injEq]
  load_eq_iff := load?_eq_iff htarget
  update_nil q := hashUpdate_nil_run p target q htarget

/-- The bytes from 0 to 207 in order. -/
def countedUp : ByteVec Size.hashState := ⟨(List.range Size.hashState).map UInt8.ofNat, by simp⟩

/-- A counter of sixteen different bytes, sixty-four bytes waiting, and two bytes behind the
state. -/
theorem countedUp_copied :
    Size.hashState ≤ Size.hashState ∧ Size.hashState ≤ 210 ∧
    (∃ s, load? countedUp = some s ∧ s.chaining.b = 0x0f0e0d0c0b0a0908 ∧
      s.count = 0x4f4e4d4c4b4a49484746454443424140 ∧ s.used = 64 ∧
      (store (ByteVec.replicate 210 0xee) s).toList = countedUp.toList ++ [0xee, 0xee]) ∧
    ((provider (.standard .any)).hashUpdate [] countedUp).run ⟨fun _ => 0, 0⟩ =
      .ok (⟨.ok (), countedUp⟩, ⟨fun _ => 0, 0⟩) := by
  have hsource : Size.hashState ≤ Size.hashState := Nat.le_refl _
  have htarget : Size.hashState ≤ 210 := by decide
  let filled := ByteVec.replicate 210 0xee
  obtain ⟨s, hload, hstore⟩ :=
    (stored_states_faithful (.standard .any) countedUp filled hsource htarget).store_load
  have hkept :=
    (stored_states_faithful (.standard .any) filled countedUp htarget hsource).update_nil
  refine ⟨hsource, htarget, ⟨s, hload, ?_, ?_, ?_, ?_⟩, hkept _⟩
  · cases hload
    decide
  · cases hload
    decide
  · cases hload
    decide
  · have hwhole : countedUp.toList.take Size.hashState = countedUp.toList :=
      List.take_of_length_le (Nat.le_of_eq countedUp.length_toList)
    have hback : filled.toList.drop Size.hashState = [0xee, 0xee] := List.drop_replicate
    rw [hstore, hwhole, hback]

end Split

end Strongbox
