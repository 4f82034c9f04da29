import Strongbox.Proofs.Bytes
import Strongbox.Sha512.Midstate

/-! # Hashing in parts

A midstate stands for the bytes absorbed so far. Taking in more bytes and padding
at the end fold exactly the blocks of the whole message, wherever it was cut. -/

namespace Strongbox.Sha512

/-! ## Whole blocks and what is left of a string -/

/-- The chaining words after all whole blocks of a string. -/
def foldBlocks (f : Compress) (s : Chaining) (b : Bytes) : Chaining :=
  absorb f (b.length / blockBytes) s b

/-- The bytes behind the last whole block. -/
def remainder (b : Bytes) : Bytes := b.drop (blockBytes * (b.length / blockBytes))

theorem length_remainder (b : Bytes) : (remainder b).length = b.length % blockBytes := by
  simp only [remainder, List.length_drop, blockBytes]
  omega

theorem remainder_of_lt {b : Bytes} (h : b.length < blockBytes) : remainder b = b := by
  have hzero : b.length / blockBytes = 0 := Nat.div_eq_of_lt h
  simp only [remainder, hzero, Nat.mul_zero, List.drop_zero]

theorem foldBlocks_of_lt (f : Compress) (s : Chaining) {b : Bytes}
    (h : b.length < blockBytes) : foldBlocks f s b = s := by
  have hzero : b.length / blockBytes = 0 := Nat.div_eq_of_lt h
  simp only [foldBlocks, hzero, absorb]

theorem absorb_add (f : Compress) (m n : Nat) (s : Chaining) (b : Bytes) :
    absorb f (m + n) s b = absorb f n (absorb f m s b) (b.drop (blockBytes * m)) := by
  induction m generalizing s b with
  | zero => simp [absorb]
  | succ m ih =>
      rw [Nat.add_right_comm, absorb, ih, absorb, List.drop_drop]
      congr 2
      simp only [blockBytes]
      omega

/-- Only the blocks that are folded in are read. -/
theorem absorb_append_right (f : Compress) (n : Nat) (s : Chaining) (a b : Bytes)
    (h : blockBytes * n ≤ a.length) : absorb f n s (a ++ b) = absorb f n s a := by
  induction n generalizing s a with
  | zero => rfl
  | succ n ih =>
      have hblock : blockBytes ≤ a.length := by
        simp only [blockBytes] at *
        omega
      have htail : blockBytes * n ≤ (a.drop blockBytes).length := by
        simp only [List.length_drop, blockBytes] at *
        omega
      have hfront : ByteVec.ofFront blockBytes (a ++ b) = ByteVec.ofFront blockBytes a := by
        apply ByteVec.ext
        rw [ByteVec.toList_ofFront (by simp only [List.length_append]; omega),
          ByteVec.toList_ofFront hblock, List.take_append_of_le_length hblock]
      rw [absorb, absorb, hfront, List.drop_append_of_le_length hblock, ih _ _ htail]

/-- A string can be cut anywhere: what the first part leaves over goes in front of
the second. -/
theorem foldBlocks_append (f : Compress) (s : Chaining) (a b : Bytes) :
    foldBlocks f s (a ++ b) = foldBlocks f (foldBlocks f s a) (remainder a ++ b) := by
  have hcount : (a ++ b).length / blockBytes =
      a.length / blockBytes + (remainder a ++ b).length / blockBytes := by
    simp only [List.length_append, length_remainder, blockBytes]
    omega
  have hwhole : blockBytes * (a.length / blockBytes) ≤ a.length := Nat.mul_div_le _ _
  rw [foldBlocks, hcount, absorb_add, absorb_append_right f _ s a b hwhole,
    List.drop_append_of_le_length hwhole]
  rfl

theorem remainder_append (a b : Bytes) : remainder (a ++ b) = remainder (remainder a ++ b) := by
  have hwhole : blockBytes * (a.length / blockBytes) ≤ a.length := Nat.mul_div_le _ _
  have hcut : remainder a ++ b = (a ++ b).drop (blockBytes * (a.length / blockBytes)) := by
    rw [List.drop_append_of_le_length hwhole, remainder]
  rw [hcut, remainder, remainder, List.drop_drop]
  congr 1
  simp only [List.length_drop, List.length_append, blockBytes] at *
  omega

/-- One block is folded in by one step and leaves nothing over. -/
theorem foldBlocks_block (f : Compress) (s : Chaining) (block : Block) :
    foldBlocks f s block.toList = f s block := by
  have hone : block.toList.length / blockBytes = 1 := by simp
  have hfront : ByteVec.ofFront blockBytes block.toList = block := by
    apply ByteVec.ext
    rw [ByteVec.toList_ofFront (by simp), List.take_of_length_le (by simp)]
  rw [foldBlocks, hone, absorb, absorb, hfront]

theorem remainder_block (block : Block) : remainder block.toList = [] := by
  apply List.eq_nil_of_length_eq_zero
  rw [length_remainder]
  simp

theorem foldBlocks_block_append (f : Compress) (s : Chaining) (block : Block) (b : Bytes) :
    foldBlocks f s (block.toList ++ b) = foldBlocks f (f s block) b := by
  rw [foldBlocks_append, foldBlocks_block, remainder_block, List.nil_append]

theorem remainder_block_append (block : Block) (b : Bytes) :
    remainder (block.toList ++ b) = remainder b := by
  rw [remainder_append, remainder_block, List.nil_append]

/-- The digest of a message folds its padded form. -/
theorem digest_eq_foldBlocks (f : Compress) (message : Bytes) :
    digest f message =
      (foldBlocks f .initial (message ++ padding message.length)).digest := rfl

/-- Padding depends on the length only as far as the sixteen bytes of the length
field reach. -/
theorem padding_congr {m n : Nat} (h : m % 2 ^ 125 = n % 2 ^ 125) : padding m = padding n := by
  have hzeros : paddingZeros m = paddingZeros n := by
    simp only [paddingZeros, blockBytes]
    omega
  have hbits : Bytes.ofNatBE 16 (8 * m) = Bytes.ofNatBE 16 (8 * n) := by
    rw [← Bytes.ofNatBE_mod 16 (8 * m), ← Bytes.ofNatBE_mod 16 (8 * n)]
    congr 1
    omega
  rw [padding, padding, hzeros, hbits]

namespace Midstate

/-! ## Taking in bytes -/

/-- The bytes of the block that count: those not yet folded in. -/
def waiting (s : Midstate) : Bytes := s.block.toList.take s.used

theorem used_lt (s : Midstate) : s.used < blockBytes := Nat.mod_lt _ (by decide)

@[simp] theorem length_waiting (s : Midstate) : s.waiting.length = s.used := by
  have hused := s.used_lt
  simp only [waiting, List.length_take, ByteVec.length_toList]
  omega

/-- Counting on moves the number of waiting bytes along, also across the end of the
counter. -/
theorem used_counted (s : Midstate) (n : Nat) (chaining : Chaining) (block : Block) :
    (⟨chaining, s.count + BitVec.ofNat 128 n, block⟩ : Midstate).used =
      (s.used + n) % blockBytes := by
  simp only [used, BitVec.toNat_add, BitVec.toNat_ofNat, blockBytes]
  omega

/-- What is written over a block becomes waiting once it is counted. -/
theorem take_overwrite {b new : Bytes} {offset : Nat} (h : offset ≤ b.length) :
    (Bytes.overwrite b offset new).take (offset + new.length) = b.take offset ++ new := by
  have hlength : (b.take offset ++ new).length = offset + new.length := by
    simp only [List.length_append, List.length_take]
    omega
  rw [Bytes.overwrite, ← hlength, List.take_left]

theorem absorbAll_chaining (f : Compress) (s : Midstate) (data : Bytes) :
    (s.absorbAll f data).chaining = foldBlocks f s.chaining data := rfl

theorem absorbAll_waiting (f : Compress) (s : Midstate) (data : Bytes)
    (h : s.used = data.length % blockBytes) :
    (s.absorbAll f data).waiting = remainder data := by
  have hlength := length_remainder data
  have hfits : 0 + (remainder data).length ≤ blockBytes := by
    have hlt := Nat.mod_lt data.length (show 0 < blockBytes by decide)
    omega
  have hused : (s.absorbAll f data).used = 0 + (remainder data).length := by
    rw [hlength, ← h, Nat.zero_add]
    rfl
  rw [waiting, hused]
  change (s.block.overwrite 0 (remainder data)).toList.take _ = _
  rw [ByteVec.toList_overwrite hfits]
  exact take_overwrite (Nat.zero_le _)

/-- An update that stops inside the waiting block only lengthens what waits. -/
theorem update_of_short (f : Compress) (s : Midstate) (data : Bytes)
    (h : s.used + data.length < blockBytes) (hused : s.used ≠ 0) :
    (s.update f data).chaining = s.chaining ∧
      (s.update f data).waiting = s.waiting ++ data := by
  have htake : data.take (blockBytes - s.used) = data := List.take_of_length_le (by omega)
  have hfits : s.used + data.length ≤ blockBytes := Nat.le_of_lt h
  simp only [update, hused, htake, h, ite_true, ite_false, true_and]
  rw [waiting, used_counted, Nat.mod_eq_of_lt h, ByteVec.toList_overwrite hfits]
  apply take_overwrite
  rw [ByteVec.length_toList]
  omega

/-- An update that completes the waiting block folds it in and goes on behind it. -/
theorem update_of_full (f : Compress) (s : Midstate) (data : Bytes)
    (h : blockBytes ≤ s.used + data.length) (hused : s.used ≠ 0) :
    ∃ block : Block, ∃ rest : Bytes,
      s.waiting ++ data = block.toList ++ rest ∧
      (s.update f data).chaining = foldBlocks f (f s.chaining block) rest ∧
      (s.update f data).waiting = remainder rest := by
  have hlt := s.used_lt
  have htaken : (data.take (blockBytes - s.used)).length = blockBytes - s.used := by
    rw [List.length_take]
    omega
  have hfits : s.used + (data.take (blockBytes - s.used)).length ≤ blockBytes := by omega
  have hfull : ¬ s.used + (blockBytes - s.used) < blockBytes := by omega
  let block := s.block.overwrite s.used (data.take (blockBytes - s.used))
  let rest := data.drop (blockBytes - s.used)
  have hblock : block.toList = s.waiting ++ data.take (blockBytes - s.used) := by
    have hwhole : block.toList.length = s.used + (data.take (blockBytes - s.used)).length := by
      rw [ByteVec.length_toList]
      omega
    rw [← List.take_length (l := block.toList), hwhole, ByteVec.toList_overwrite hfits]
    apply take_overwrite
    rw [ByteVec.length_toList]
    omega
  refine ⟨block, rest, ?_, ?_, ?_⟩
  · rw [hblock, List.append_assoc, List.take_append_drop]
  · simp only [update, hused, htaken, hfull, ite_false]
    rfl
  · simp only [update, hused, htaken, hfull, ite_false]
    apply absorbAll_waiting
    rw [used_counted, List.length_drop]
    simp only [blockBytes] at *
    omega

theorem update_chaining (f : Compress) (s : Midstate) (data : Bytes) :
    (s.update f data).chaining = foldBlocks f s.chaining (s.waiting ++ data) := by
  by_cases hused : s.used = 0
  · have hnone : s.waiting = [] := List.eq_nil_of_length_eq_zero (by rw [length_waiting, hused])
    rw [hnone, List.nil_append]
    simp only [update, hused, ite_true, absorbAll_chaining]
  · by_cases h : s.used + data.length < blockBytes
    · rw [(update_of_short f s data h hused).1, foldBlocks_of_lt]
      rwa [List.length_append, length_waiting]
    · obtain ⟨block, rest, hsplit, hchaining, _⟩ :=
        update_of_full f s data (Nat.le_of_not_lt h) hused
      rw [hchaining, hsplit, foldBlocks_block_append]

theorem update_waiting (f : Compress) (s : Midstate) (data : Bytes) :
    (s.update f data).waiting = remainder (s.waiting ++ data) := by
  by_cases hused : s.used = 0
  · have hnone : s.waiting = [] := List.eq_nil_of_length_eq_zero (by rw [length_waiting, hused])
    rw [hnone, List.nil_append]
    simp only [update, hused, ite_true]
    rw [absorbAll_waiting]
    rw [used_counted, hused, Nat.zero_add]
  · by_cases h : s.used + data.length < blockBytes
    · rw [(update_of_short f s data h hused).2, remainder_of_lt]
      rwa [List.length_append, length_waiting]
    · obtain ⟨block, rest, hsplit, _, hwaiting⟩ :=
        update_of_full f s data (Nat.le_of_not_lt h) hused
      rw [hwaiting, hsplit, remainder_block_append]

theorem update_count (f : Compress) (s : Midstate) (data : Bytes) :
    (s.update f data).count = s.count + BitVec.ofNat 128 data.length := by
  simp only [update]
  split
  · rfl
  · split <;> rfl

/-! ## Padding at the end -/

/-- Overwriting up to the end leaves nothing of the old bytes behind the offset. -/
theorem overwrite_to_end {b new : Bytes} {offset : Nat} (h : offset + new.length = b.length) :
    Bytes.overwrite b offset new = b.take offset ++ new := by
  rw [Bytes.overwrite, h, List.drop_length, List.append_nil]

theorem toList_marked (s : Midstate) :
    s.marked.toList = s.waiting ++ 0x80 :: Bytes.zeros (blockBytes - 1 - s.used) := by
  have hlt := s.used_lt
  have hmark : s.used + [(0x80 : UInt8)].length ≤ blockBytes := by
    simp only [List.length_singleton]
    omega
  have hzeros : s.used + 1 + (Bytes.zeros (blockBytes - 1 - s.used)).length = blockBytes := by
    rw [Bytes.length_zeros]
    omega
  rw [marked, ByteVec.toList_overwrite (Nat.le_of_eq hzeros), overwrite_to_end (by
    rw [hzeros, ByteVec.length_toList]), ByteVec.toList_overwrite hmark]
  have htake : (Bytes.overwrite s.block.toList s.used [0x80]).take (s.used + 1) =
      s.waiting ++ [0x80] :=
    @take_overwrite s.block.toList [0x80] s.used (by rw [ByteVec.length_toList]; omega)
  rw [htake, List.append_assoc, List.singleton_append]

/-- Where the mark leaves room for the length, both complete one block. -/
theorem toList_lastBlock (s : Midstate) {bits : Bytes} (hbits : bits.length = 16)
    (h : s.used < lengthField) :
    (s.marked.overwrite lengthField bits).toList =
      s.waiting ++ 0x80 :: (Bytes.zeros (lengthField - 1 - s.used) ++ bits) := by
  have hend : lengthField + bits.length = blockBytes := by
    rw [hbits]
    rfl
  have hroom : lengthField - s.waiting.length = lengthField - 1 - s.used + 1 := by
    rw [length_waiting]
    omega
  have hshort : lengthField - 1 - s.used ≤ blockBytes - 1 - s.used := by
    simp only [lengthField]
    omega
  rw [ByteVec.toList_overwrite (Nat.le_of_eq hend), overwrite_to_end (by
    rw [hend, ByteVec.length_toList]), toList_marked, List.take_append,
    List.take_of_length_le (by rw [length_waiting]; omega), hroom, List.take_succ_cons,
    Bytes.take_zeros, Nat.min_eq_left hshort, List.append_assoc, List.cons_append]

/-- A padded end folds the waiting bytes, the mark, the zeros and the length. -/
theorem finish_chaining (f : Compress) (s : Midstate) :
    (s.finish f).chaining =
      foldBlocks f s.chaining (s.waiting ++ padding s.count.toNat) := by
  have hlt := s.used_lt
  have hmod : s.count.toNat % blockBytes = s.used := rfl
  have hbits := Bytes.length_ofNatBE 16 (8 * s.count.toNat)
  by_cases h : s.used < lengthField
  · have hzeros : paddingZeros s.count.toNat = lengthField - 1 - s.used := by
      simp only [paddingZeros, hmod, blockBytes, lengthField] at *
      omega
    simp only [finish, h, ite_true]
    rw [padding, hzeros, ← toList_lastBlock s hbits h, foldBlocks_block]
  · have hzeros : paddingZeros s.count.toNat = blockBytes - 1 - s.used + lengthField := by
      simp only [paddingZeros, hmod, blockBytes, lengthField] at *
      omega
    have hlast : ((ByteVec.zeros blockBytes).overwrite lengthField
        (Bytes.ofNatBE 16 (8 * s.count.toNat))).toList =
          Bytes.zeros lengthField ++ Bytes.ofNatBE 16 (8 * s.count.toNat) := by
      rw [ByteVec.toList_overwrite (by simp [hbits]), overwrite_to_end (by simp [hbits]),
        ByteVec.toList_zeros, Bytes.take_zeros]
      rfl
    simp only [finish, h, ite_false]
    rw [padding, hzeros, Bytes.zeros_add, List.append_assoc, ← hlast, ← List.cons_append,
      ← List.append_assoc, ← toList_marked, foldBlocks_block_append, foldBlocks_block]

/-! ## Runs of updates -/

/-- `s` is reached from `base` by taking in `data`, in whatever parts. Of the counter
only what the padding can show is fixed. -/
structure Reached (f : Compress) (base : Midstate) (data : Bytes) (s : Midstate) : Prop where
  chaining : s.chaining = foldBlocks f base.chaining (base.waiting ++ data)
  waiting : s.waiting = remainder (base.waiting ++ data)
  count : s.count.toNat % 2 ^ 125 = (base.count.toNat + data.length) % 2 ^ 125

theorem reached_nil (f : Compress) (base : Midstate) : Reached f base [] base := by
  have hshort : (base.waiting ++ []).length < blockBytes := by
    rw [List.append_nil, length_waiting]
    exact base.used_lt
  refine ⟨?_, ?_, rfl⟩
  · rw [foldBlocks_of_lt f _ hshort]
  · rw [remainder_of_lt hshort, List.append_nil]

theorem Reached.update {f : Compress} {base s : Midstate} {data : Bytes}
    (h : Reached f base data s) (chunk : Bytes) :
    Reached f base (data ++ chunk) (s.update f chunk) := by
  refine ⟨?_, ?_, ?_⟩
  · rw [update_chaining, h.chaining, h.waiting, ← List.append_assoc, ← foldBlocks_append]
  · rw [update_waiting, h.waiting, ← List.append_assoc, ← remainder_append]
  · have hcount := h.count
    rw [update_count, BitVec.toNat_add, BitVec.toNat_ofNat, List.length_append]
    omega

/-- Bits of the counter above the length field make no difference. -/
theorem Reached.recount {f : Compress} {base s : Midstate} {data : Bytes}
    (h : Reached f base data s) (count : BitVec 128)
    (hcount : count.toNat % 2 ^ 125 = s.count.toNat % 2 ^ 125) :
    Reached f base data { s with count } := by
  have hused : ({ s with count } : Midstate).used = s.used := by
    simp only [used, blockBytes]
    omega
  refine ⟨h.chaining, ?_, hcount.trans h.count⟩
  rw [← h.waiting, Midstate.waiting, Midstate.waiting, hused]

/-- However the bytes arrived, the end folds them as one string, padded by their
number. -/
theorem Reached.finish {f : Compress} {base s : Midstate} {data : Bytes}
    (h : Reached f base data s) :
    (s.finish f).chaining = foldBlocks f base.chaining
      (base.waiting ++ data ++ padding (base.count.toNat + data.length)) := by
  rw [finish_chaining, h.chaining, h.waiting, padding_congr h.count, ← foldBlocks_append]

/-- A stream from the initial state yields the digest of the whole message. -/
theorem Reached.digest {f : Compress} {message : Bytes} {s : Midstate}
    (h : Reached f .initial message s) : (s.finish f).digest = Sha512.digest f message := by
  have hempty : Midstate.initial.waiting = [] := rfl
  have hzero : Midstate.initial.count.toNat = 0 := rfl
  rw [Midstate.digest, h.finish, hempty, hzero, List.nil_append, Nat.zero_add,
    digest_eq_foldBlocks]
  rfl

end Midstate

end Strongbox.Sha512
