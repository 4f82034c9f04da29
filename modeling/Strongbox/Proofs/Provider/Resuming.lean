import Strongbox.Proofs.Provider.Memory
import Strongbox.Proofs.Sha512.Standard

/-! # Hash states of any origin

The provider that counts bytes takes up any state it is handed, also one that no stream has
reached. What it makes of it depends on the chaining words, the counter and the waiting bytes;
the bytes behind them in the block differ from one way of cutting a message to the next. -/

namespace Strongbox

namespace Sha512

/-! ## Midstates up to stale bytes -/

namespace Midstate

/-- The two differ at most in the stale bytes of their blocks. -/
structure Alike (s t : Midstate) : Prop where
  chaining : s.chaining = t.chaining
  count : s.count = t.count
  waiting : s.waiting = t.waiting

/-- `s` is reached from `base` by taking in `data`, and its counter has not wrapped. -/
structure Continues (f : Compress) (base : Midstate) (data : Bytes) (s : Midstate) : Prop
    extends Reached f base data s where
  total : s.count.toNat = base.count.toNat + data.length

theorem continues_nil (f : Compress) (base : Midstate) : Continues f base [] base :=
  ⟨reached_nil f base, rfl⟩

theorem Continues.update {f : Compress} {base s : Midstate} {data : Bytes}
    (h : Continues f base data s) (chunk : Bytes)
    (hfits : base.count.toNat + (data ++ chunk).length < 2 ^ 128) :
    Continues f base (data ++ chunk) (s.update f chunk) := by
  refine ⟨h.toReached.update chunk, ?_⟩
  have htotal := h.total
  rw [List.length_append] at hfits
  rw [update_count, BitVec.toNat_add, BitVec.toNat_ofNat, List.length_append]
  omega

/-- Alike states stay alike under the same bytes, however these are cut. -/
theorem Continues.alike {f : Compress} {base base' s s' : Midstate} {data : Bytes}
    (h : Continues f base data s) (h' : Continues f base' data s') (hbase : Alike base base') :
    Alike s s' := by
  refine ⟨?_, ?_, ?_⟩
  · rw [h.chaining, h'.chaining, hbase.chaining, hbase.waiting]
  · apply BitVec.eq_of_toNat_eq
    rw [h.total, h'.total, hbase.count]
  · rw [h.waiting, h'.waiting, hbase.waiting]

/-- Alike states are padded to the same digest. -/
theorem Alike.digest_finish (f : Compress) {s t : Midstate} (h : Alike s t) :
    (s.finish f).digest = (t.finish f).digest := by
  rw [digest, digest, finish_chaining, finish_chaining, h.chaining, h.count, h.waiting]

/-- The waiting bytes and all that arrives are completed by the padding for the whole count. -/
theorem closes_pending (base : Midstate) (data : Bytes) :
    Closes (base.waiting ++ data).length (base.count.toNat + data.length)
      (padding (base.count.toNat + data.length)) := by
  apply closes_padding
  rw [List.length_append, length_waiting, used, Nat.mod_add_mod]

end Midstate

end Sha512

/-- Feeds the chunks one after another; a refusal ends the feeding. -/
def Provider.updateAll {σ : Type} {n : Nat} (P : Provider σ) : List Bytes → InPlace σ n Unit
  | [] => fun buf => return ⟨.ok (), buf⟩
  | chunk :: chunks => fun buf => do
    let fed ← P.hashUpdate chunk buf
    match fed.result with
    | .ok () => P.updateAll chunks fed.buffer
    | .error _ => return fed

namespace Split

open Sha512 (Midstate)

variable (p : Primitives)

/-- The state that stands in front of a buffer. -/
def midstate {n : Nat} (buf : ByteVec n) (h : Size.hashState ≤ n) : Midstate :=
  .ofBytes (buf.first Size.hashState h)

theorem midstate_of_front {n : Nat} {buf : ByteVec n} {s : Midstate} {back : Bytes}
    (hbuf : buf.toList = s.toBytes.toList ++ back) (h : Size.hashState ≤ n) :
    midstate buf h = s := by
  rw [midstate, ByteVec.first_of_append hbuf h, Midstate.ofBytes_toBytes]

/-- The chunks are fed and leave `fed`, which is then ended with a digest. -/
structure Resumes {n : Nat} (q : Entropy) (buf : ByteVec n) (chunks : List Bytes)
    (fed : ByteVec n) (digest : Digest) : Prop where
  updates : ((provider p).updateAll chunks buf).run q = .ok (⟨.ok (), fed⟩, q)
  final : ∃ left, ((provider p).hashFinal fed).run q = .ok (⟨.ok digest, left⟩, q)

/-- One chunk is taken in by the state in front of the buffer. -/
theorem hashUpdate_continues {n : Nat} {buf : ByteVec n} {h : Size.hashState ≤ n}
    {base : Midstate} {data : Bytes} (chunk : Bytes) (q : Entropy)
    (hbuf : Midstate.Continues p.compress base data (midstate buf h))
    (hfits : base.count.toNat + (data ++ chunk).length < 2 ^ 128) :
    ∃ fed, ((provider p).hashUpdate chunk buf).run q = .ok (⟨.ok (), fed⟩, q) ∧
      Midstate.Continues p.compress base (data ++ chunk) (midstate fed h) := by
  have hcount : (midstate buf h).count.toNat + chunk.length < 2 ^ 128 := by
    rw [hbuf.total, Nat.add_assoc, ← List.length_append]
    exact hfits
  refine ⟨_, hashUpdate_run p chunk q (load?_of_le buf h) hcount, ?_⟩
  rw [midstate_of_front (toList_store buf _ h) h]
  exact hbuf.update chunk hfits

theorem updateAll_continues {n : Nat} (chunks : List Bytes) {buf : ByteVec n}
    {h : Size.hashState ≤ n} {base : Midstate} {data : Bytes} (q : Entropy)
    (hbuf : Midstate.Continues p.compress base data (midstate buf h))
    (hfits : base.count.toNat + (data ++ chunks.flatten).length < 2 ^ 128) :
    ∃ fed, ((provider p).updateAll chunks buf).run q = .ok (⟨.ok (), fed⟩, q) ∧
      Midstate.Continues p.compress base (data ++ chunks.flatten) (midstate fed h) := by
  induction chunks generalizing buf data with
  | nil =>
      rw [List.flatten_nil, List.append_nil]
      exact ⟨buf, rfl, hbuf⟩
  | cons chunk chunks ih =>
      rw [List.flatten_cons, ← List.append_assoc] at hfits ⊢
      have hfirst : base.count.toNat + (data ++ chunk).length < 2 ^ 128 := by
        rw [List.length_append] at hfits
        omega
      obtain ⟨next, hupdate, hnext⟩ := hashUpdate_continues p chunk q hbuf hfirst
      obtain ⟨fed, hrest, hfed⟩ := ih hnext hfits
      refine ⟨fed, ?_, hfed⟩
      rw [Provider.updateAll, StateT.run_bind, hupdate]
      exact hrest

/-- Whatever a state holds, what arrives is hashed behind its waiting bytes. -/
theorem resumes {n : Nat} (buf : ByteVec n) (h : Size.hashState ≤ n) (chunks : List Bytes)
    (q : Entropy) (hfits : (midstate buf h).count.toNat + chunks.flatten.length < 2 ^ 128) :
    ∃ fed, Resumes p q buf chunks fed ((midstate fed h).finish p.compress).digest ∧
      Midstate.Continues p.compress (midstate buf h) chunks.flatten (midstate fed h) := by
  obtain ⟨fed, hupdates, hfed⟩ :=
    updateAll_continues p chunks q (Midstate.continues_nil p.compress (midstate buf h)) hfits
  exact ⟨fed, ⟨hupdates, _, hashFinal_run p q (load?_of_le fed h)⟩, hfed⟩

/-- Every state can be taken up, crafted ones included. The waiting bytes, all that arrives and
its ending are folded into the chaining words, and these stand in the digest, each with its
highest byte first. The digest and the state before the end are the same for every buffer that
differs in stale bytes only, and for every way of cutting. -/
theorem states_resume {n : Nat} (buf : ByteVec n) (h : Size.hashState ≤ n)
    (chunks : List Bytes) (q : Entropy)
    (hfits : (midstate buf h).count.toNat + chunks.flatten.length < 2 ^ 128) :
    ∃ fed ending digest,
      Sha512.Closes ((midstate buf h).waiting ++ chunks.flatten).length
        ((midstate buf h).count.toNat + chunks.flatten.length) ending ∧
      (Sha512.foldBlocks p.compress (midstate buf h).chaining
        ((midstate buf h).waiting ++ chunks.flatten ++ ending)).ShownIn digest.toList ∧
      Resumes p q buf chunks fed digest ∧
      ∀ {m : Nat} (buf' : ByteVec m) (h' : Size.hashState ≤ m) (chunks' : List Bytes)
        (q' : Entropy), Midstate.Alike (midstate buf h) (midstate buf' h') →
        chunks.flatten = chunks'.flatten →
        ∃ fed', Resumes p q' buf' chunks' fed' digest ∧
          Midstate.Alike (midstate fed h) (midstate fed' h') := by
  obtain ⟨fed, hresumes, hfed⟩ := resumes p buf h chunks q hfits
  refine ⟨fed, _, _, Midstate.closes_pending _ _, ?_, hresumes, ?_⟩
  · rw [Midstate.digest, hfed.finish]
    exact Sha512.Chaining.shownIn_digest _
  · intro m buf' h' chunks' q' halike hflatten
    rw [halike.count, hflatten] at hfits
    obtain ⟨fed', hresumes', hfed'⟩ := resumes p buf' h' chunks' q' hfits
    rw [← hflatten] at hfed'
    have hfeds := hfed.alike hfed' halike
    rw [← hfeds.digest_finish] at hresumes'
    exact ⟨fed', hresumes', hfeds⟩

/-- A hundred waiting bytes under a counter beyond `2 ^ 125`, with stale bytes behind them. -/
def crafted (stale : UInt8) : Midstate :=
  ⟨.initial, BitVec.ofNat 128 (2 ^ 127 + 100),
    (ByteVec.zeros 100).append (ByteVec.replicate 28 stale)⟩

/-- The digest of its waiting bytes and forty-one bytes more, which count on from its counter. -/
def craftedDigest : Digest := ⟨⟨[
  0x4e, 0x3e, 0x7b, 0xb5, 0xf1, 0x3f, 0x52, 0x0e, 0xe3, 0x9c, 0xd4, 0xb6, 0xbc, 0xa9, 0xe6, 0xcc,
  0xa7, 0xa1, 0x64, 0x55, 0x2c, 0x33, 0x7e, 0xf0, 0xcb, 0x59, 0xdb, 0x74, 0x90, 0x20, 0xc1, 0xc8,
  0x6b, 0x1b, 0x0f, 0xa7, 0xb8, 0x4d, 0xaf, 0xff, 0xff, 0x41, 0x32, 0xd9, 0x4b, 0x37, 0x6a, 0x94,
  0xdf, 0x74, 0x1d, 0x7e, 0xfc, 0xde, 0x4d, 0xbf, 0x22, 0xaa, 0x64, 0x21, 0x2e, 0x42, 0x13, 0xc5],
  rfl⟩⟩

/-- Other stale bytes and another cut, across the end of a block. -/
theorem crafted_states_resume :
    (crafted 1).block ≠ (crafted 2).block ∧
    ∃ fed fed',
      Resumes (.standard .any) ⟨fun _ => 0, 0⟩ (crafted 1).toBytes [[5], [], Bytes.zeros 40]
        fed craftedDigest ∧
      Resumes (.standard .any) ⟨fun _ => 0, 0⟩ (crafted 2).toBytes [5 :: Bytes.zeros 40]
        fed' craftedDigest := by
  have hstate (stale : UInt8) : midstate (crafted stale).toBytes (Nat.le_refl _) = crafted stale :=
    midstate_of_front (List.append_nil _).symm (Nat.le_refl _)
  have hfits : (midstate (crafted 1).toBytes (Nat.le_refl _)).count.toNat +
      [[5], [], Bytes.zeros 40].flatten.length < 2 ^ 128 := by
    rw [hstate]
    decide
  have halike : Midstate.Alike (midstate (crafted 1).toBytes (Nat.le_refl _))
      (midstate (crafted 2).toBytes (Nat.le_refl _)) := by
    rw [hstate, hstate]
    exact ⟨rfl, rfl, by decide⟩
  obtain ⟨fed, ending, digest, hending, hshown, hresumes, hothers⟩ :=
    states_resume (.standard .any) (crafted 1).toBytes (Nat.le_refl _) [[5], [], Bytes.zeros 40]
      ⟨fun _ => 0, 0⟩ hfits
  obtain ⟨fed', hresumes', -⟩ :=
    hothers (crafted 2).toBytes (Nat.le_refl _) [5 :: Bytes.zeros 40] ⟨fun _ => 0, 0⟩ halike rfl
  obtain rfl := hending.unique (Midstate.closes_pending _ _)
  rw [hstate] at hshown
  let folded := Sha512.foldBlocks (Primitives.standard .any).compress (crafted 1).chaining
    ((crafted 1).waiting ++ [[5], [], Bytes.zeros 40].flatten ++
      Sha512.padding ((crafted 1).count.toNat + [[5], [], Bytes.zeros 40].flatten.length))
  have hbytes : folded.digest = craftedDigest := by decide +kernel
  have hcrafted : folded.ShownIn craftedDigest.toList := hbytes ▸ folded.shownIn_digest
  obtain rfl := hshown.unique hcrafted
  exact ⟨by decide, fed, fed', hresumes, hresumes'⟩

end Split

end Strongbox
