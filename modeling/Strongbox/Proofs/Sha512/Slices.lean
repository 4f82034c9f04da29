import Strongbox.Proofs.Sha512.Layout
import Strongbox.Proofs.Sha512.Streaming
import Strongbox.Proofs.Slices

/-! # A hash state in slices

A stored state is read and written part by part, and bytes go to the waiting block and from it
by their bounds. All bounds are kept, whatever the counter says and however long the data are,
and what comes of it is the state that is stored, updated and finished as a whole. -/

namespace Strongbox.Sha512.Sliced

/-! ## The parts of a stored state -/

/-- Copies words, eight bytes each, from the `k`-th place on. -/
def copyWords (encode : UInt64 → Bytes) {n : Nat} :
    (k : Nat) → List UInt64 → ByteVec n → Except Violation (ByteVec n)
  | _, [], buf => .ok buf
  | k, w :: words, buf => do
    let buf ← buf.copy (8 * k) (8 * k + 8) (encode w)
    copyWords encode (k + 1) words buf

/-- The little-endian word at the `k`-th place. -/
def word (b : Bytes) (k : Nat) : Except Violation UInt64 := do
  let raw ← b.slice (8 * k) (8 * k + 8)
  return UInt64.ofNat (Bytes.toNatLE raw)

/-- Reads the state at the front of a buffer, if the buffer is long enough. -/
def load {n : Nat} (buf : ByteVec n) : Except Violation (Option Midstate) := do
  if n < Size.hashState then return none
  let b := buf.toList
  let chaining : Chaining :=
    ⟨← word b 0, ← word b 1, ← word b 2, ← word b 3, ← word b 4, ← word b 5, ← word b 6,
      ← word b 7⟩
  let count ← b.slice counterOffset blockOffset
  let stored ← b.slice blockOffset Size.hashState
  let block ← (ByteVec.zeros blockBytes).copy 0 blockBytes stored
  return some ⟨chaining, BitVec.ofNat 128 (Bytes.toNatLE count), block⟩

/-- Writes a state to the front of a buffer. -/
def store {n : Nat} (buf : ByteVec n) (s : Midstate) : Except Violation (ByteVec n) := do
  let buf ← copyWords (fun w => Bytes.ofNatLE 8 w.toNat) 0 s.chaining.words buf
  let buf ← buf.copy counterOffset blockOffset (Bytes.ofNatLE 16 s.count.toNat)
  buf.copy blockOffset Size.hashState s.block.toList

/-! ## The waiting block -/

/-- Folds in the whole blocks and puts the rest to the front of the block. -/
def absorbAll (f : Compress) (s : Midstate) (data : Bytes) : Except Violation Midstate := do
  let full := data.length - data.length % blockBytes
  let blocks ← data.slice 0 full
  let rest ← data.slice full data.length
  let block ← s.block.copy 0 rest.length rest
  return { s with chaining := absorb f (full / blockBytes) s.chaining blocks, block }

/-- Takes in bytes, of which the first complete the block that is waiting. -/
def update (f : Compress) (s : Midstate) (data : Bytes) : Except Violation Midstate := do
  let used := s.used
  let counted := { s with count := s.count + BitVec.ofNat 128 data.length }
  if used = 0 then absorbAll f counted data
  else
    let taken := min (blockBytes - used) data.length
    let front ← data.slice 0 taken
    let block ← s.block.copy used (used + taken) front
    let data ← data.slice taken data.length
    if used + taken < blockBytes then return { counted with block }
    else absorbAll f { counted with chaining := f s.chaining block, block } data

/-- Marks the end of the waiting bytes and puts the length at the end of a block. -/
def finish (f : Compress) (s : Midstate) : Except Violation Midstate := do
  let used := s.used
  let bits := Bytes.ofNatBE 16 (8 * s.count.toNat)
  let marked ← s.block.copy used (used + 1) [0x80]
  let marked ← marked.copy (used + 1) blockBytes (Bytes.zeros (blockBytes - (used + 1)))
  if used < Midstate.lengthField then
    let block ← marked.copy Midstate.lengthField blockBytes bits
    return { s with chaining := f s.chaining block, block }
  else
    let block ← (ByteVec.zeros blockBytes).copy Midstate.lengthField blockBytes bits
    return { s with chaining := f (f s.chaining marked) block, block }

/-! ## All bounds are kept -/

theorem length_flatMap_words {encode : UInt64 → Bytes} (hencode : ∀ w, (encode w).length = 8)
    (words : List UInt64) : (words.flatMap encode).length = 8 * words.length := by
  induction words with
  | nil => rfl
  | cons w words ih =>
      rw [List.flatMap_cons, List.length_append, hencode, ih, List.length_cons]
      omega

/-- Words are copied one behind the other, by induction on them. -/
theorem copyWords_eq {encode : UInt64 → Bytes} (hencode : ∀ w, (encode w).length = 8) {n : Nat}
    (k : Nat) (words : List UInt64) (buf : ByteVec n) (h : 8 * (k + words.length) ≤ n) :
    copyWords encode k words buf = .ok (buf.overwrite (8 * k) (words.flatMap encode)) := by
  induction words generalizing k buf with
  | nil => rw [List.flatMap_nil, ByteVec.overwrite_nil, copyWords]
  | cons w words ih =>
      rw [List.length_cons] at h
      have hrest := length_flatMap_words hencode words
      have hcopy : buf.copy (8 * k) (8 * k + 8) (encode w) =
          .ok (buf.overwrite (8 * k) (encode w)) :=
        buf.copy_of_bounds (by rw [hencode]) (by omega)
      have hnext : 8 * (k + 1) = 8 * k + (encode w).length := by
        rw [hencode]
        omega
      have hfits : 8 * k + (encode w).length + (words.flatMap encode).length ≤ n := by
        rw [hencode, hrest]
        omega
      rw [copyWords, hcopy, ok_bind, ih (k + 1) _ (by omega), hnext,
        buf.overwrite_overwrite hfits, List.flatMap_cons]

/-- The words of a digest fill it. -/
theorem copyWords_digest (s : Chaining) (place : ByteVec Size.digest) :
    copyWords (fun w => Bytes.ofNatBE 8 w.toNat) 0 s.words place = .ok s.digest.toByteVec := by
  rw [copyWords_eq (fun w => Bytes.length_ofNatBE 8 w.toNat) 0 s.words place (Nat.le_refl _)]
  exact congrArg Except.ok (place.overwrite_whole s.digest.toByteVec)

theorem word_eq {b : Bytes} {k : Nat} (h : 8 * k + 8 ≤ b.length) :
    word b k = .ok (Chaining.wordAt b (8 * k)) := by
  rw [word, Bytes.slice_of_le (Nat.le_add_right _ 8) h, Nat.add_sub_cancel_left]
  rfl

theorem store_eq {n : Nat} (buf : ByteVec n) (s : Midstate) (h : Size.hashState ≤ n) :
    store buf s = .ok (buf.overwrite 0 s.toBytes.toList) := by
  have hroom : 8 * (0 + 8) ≤ n := Nat.le_trans (by decide) h
  have hblock : blockOffset ≤ n := Nat.le_trans (by decide) h
  have hcount := Bytes.length_ofNatLE 16 s.count.toNat
  have hfront :
      0 + (s.chaining.toBytes ++ Bytes.ofNatLE 16 s.count.toNat).length = blockOffset := by
    rw [List.length_append, s.chaining.length_toBytes, hcount]
  have hwords : copyWords (fun w => Bytes.ofNatLE 8 w.toNat) 0 s.chaining.words buf =
      .ok (buf.overwrite 0 s.chaining.toBytes) :=
    copyWords_eq (fun w => Bytes.length_ofNatLE 8 w.toNat) 0 _ buf hroom
  rw [store, hwords, ok_bind,
    buf.copy_behind (by rw [s.chaining.length_toBytes]) (by rw [hcount]) hblock, ok_bind,
    buf.copy_behind hfront (by rw [s.block.length_toList]) h]
  rfl

theorem load_of_short {n : Nat} (buf : ByteVec n) (h : n < Size.hashState) :
    load buf = .ok none := by
  rw [load, if_pos h]
  rfl

theorem load_eq {n : Nat} (buf : ByteVec n) (h : Size.hashState ≤ n) :
    load buf = .ok (some (.ofBytes (buf.first Size.hashState h))) := by
  have hroom : 208 ≤ buf.toList.length := by rwa [buf.length_toList]
  have hword (k : Nat) (hk : k < 8) :
      word buf.toList k = .ok (Chaining.wordAt (buf.toList.take Size.hashState) (8 * k)) := by
    rw [word_eq (by omega), Chaining.wordAt, Chaining.wordAt, List.drop_take, List.take_take]
    rw [Nat.min_eq_left (show 8 ≤ Size.hashState - 8 * k by simp only [Size.hashState]; omega)]
  have hcount : buf.toList.slice counterOffset blockOffset =
      .ok (Midstate.storedCounter (buf.first Size.hashState h)) := by
    rw [Bytes.slice_of_le (by decide) (Nat.le_trans (by decide) hroom), Midstate.storedCounter,
      ByteVec.first, List.drop_take, List.take_take]
    rfl
  have hstored : buf.toList.slice blockOffset Size.hashState =
      .ok (Midstate.storedBlock (buf.first Size.hashState h)).toList := by
    rw [Bytes.slice_of_le (by decide) hroom, ← List.drop_take]
    rfl
  simp only [load, Nat.not_lt.mpr h, ite_false]
  rw [hword 0 (by decide), hword 1 (by decide), hword 2 (by decide), hword 3 (by decide),
    hword 4 (by decide), hword 5 (by decide), hword 6 (by decide), hword 7 (by decide)]
  simp only [ok_bind, hcount, hstored, ByteVec.copy_whole]
  rfl

theorem absorbAll_eq (f : Compress) (s : Midstate) (data : Bytes) :
    absorbAll f s data = .ok (s.absorbAll f data) := by
  let whole := data.length / blockBytes
  have hparts : blockBytes * whole + data.length % blockBytes = data.length :=
    Nat.div_add_mod _ _
  have hlt : data.length % blockBytes < blockBytes := Nat.mod_lt _ (by decide)
  have hfull : data.length - data.length % blockBytes = blockBytes * whole := by omega
  have hle : blockBytes * whole ≤ data.length := by omega
  have hrest : (data.drop (blockBytes * whole)).length ≤ blockBytes := by
    rw [List.length_drop]
    omega
  have hblocks : absorb f whole s.chaining (data.take (blockBytes * whole)) =
      absorb f whole s.chaining data := by
    have hlength : (data.take (blockBytes * whole)).length = blockBytes * whole :=
      List.length_take_of_le hle
    rw [← absorb_append_right f whole s.chaining _ (data.drop (blockBytes * whole))
      (Nat.le_of_eq hlength.symm), List.take_append_drop]
  have hcount : blockBytes * whole / blockBytes = whole :=
    Nat.mul_div_cancel_left whole (by decide)
  rw [absorbAll, hfull, Bytes.slice_front hle, ok_bind, Bytes.slice_back hle rfl, ok_bind,
    ByteVec.copy_of_bounds _ (Nat.zero_add _) hrest, ok_bind, hcount, hblocks]
  rfl

theorem update_eq (f : Compress) (s : Midstate) (data : Bytes) :
    update f s data = .ok (s.update f data) := by
  have hlt := s.used_lt
  by_cases hused : s.used = 0
  · simp only [update, Midstate.update, hused, ite_true]
    exact absorbAll_eq f _ data
  · let taken := min (blockBytes - s.used) data.length
    let front := data.take (blockBytes - s.used)
    let block := s.block.overwrite s.used front
    let count := s.count + BitVec.ofNat 128 data.length
    have hfront : front.length = taken := List.length_take
    have htaken : taken ≤ data.length := Nat.min_le_right _ _
    have hslice : data.slice 0 taken = .ok front := by
      rw [Bytes.slice_front htaken, ← List.take_eq_take_min]
    have hroom : s.used + taken ≤ blockBytes := by
      have hle : taken ≤ blockBytes - s.used := Nat.min_le_left _ _
      omega
    have hcopy : s.block.copy s.used (s.used + taken) front = .ok block :=
      s.block.copy_of_bounds (by rw [hfront]) hroom
    have hrest : data.slice taken data.length = .ok (data.drop taken) :=
      Bytes.slice_back htaken rfl
    have hupdate : s.update f data =
        if s.used + taken < blockBytes then ⟨s.chaining, count, block⟩
        else Midstate.absorbAll f ⟨f s.chaining block, count, block⟩ (data.drop taken) := by
      rw [← hfront]
      simp only [Midstate.update, hused, ite_false]
      rfl
    simp only [update, hused, ite_false]
    change (data.slice 0 taken >>= _) = _
    rw [hslice, ok_bind]
    change (s.block.copy s.used (s.used + taken) front >>= _) = _
    rw [hcopy, ok_bind]
    change (data.slice taken data.length >>= _) = _
    rw [hrest, ok_bind, hupdate]
    by_cases hshort : s.used + taken < blockBytes
    · rw [if_pos hshort, if_pos hshort]
      rfl
    · rw [if_neg hshort, if_neg hshort]
      exact absorbAll_eq f _ _

theorem finish_eq (f : Compress) (s : Midstate) : finish f s = .ok (s.finish f) := by
  have hlt := s.used_lt
  have hbits := Bytes.length_ofNatBE 16 (8 * s.count.toNat)
  have hmark : s.block.copy s.used (s.used + 1) [0x80] = .ok (s.block.overwrite s.used [0x80]) :=
    s.block.copy_of_bounds rfl hlt
  have hmarked : (s.block.overwrite s.used [0x80]).copy (s.used + 1) blockBytes
      (Bytes.zeros (blockBytes - (s.used + 1))) = .ok s.marked := by
    have hzeros : blockBytes - (s.used + 1) = blockBytes - 1 - s.used := by omega
    rw [ByteVec.copy_of_bounds _ (by rw [Bytes.length_zeros]; omega) (Nat.le_refl _), hzeros]
    rfl
  have hlength (block : Block) :
      block.copy Midstate.lengthField blockBytes (Bytes.ofNatBE 16 (8 * s.count.toNat)) =
        .ok (block.overwrite Midstate.lengthField (Bytes.ofNatBE 16 (8 * s.count.toNat))) :=
    block.copy_of_bounds (congrArg (Midstate.lengthField + ·) hbits) (Nat.le_refl _)
  simp only [finish, Midstate.finish, hmark, ok_bind, hmarked, hlength]
  split_ifs <;> rfl

end Strongbox.Sha512.Sliced
