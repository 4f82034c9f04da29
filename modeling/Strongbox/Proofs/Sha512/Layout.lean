import Mathlib.Data.List.Basic
import Strongbox.Proofs.Bytes
import Strongbox.Sha512.Layout

/-! # Midstates in bytes

A stored midstate reads back. The layout that counts bytes keeps the whole counter;
the one that counts bits keeps it up to the bits that fit. Of the first, every string is the
form of some midstate, and each byte has its place. -/

namespace Strongbox.Sha512

namespace Chaining

/-- Words stored one after another are found at multiples of eight. -/
theorem wordAt_flatMap (ws : List UInt64) (back : Bytes) (i : Nat) (h : i < ws.length) :
    wordAt (ws.flatMap (fun w => Bytes.ofNatLE 8 w.toNat) ++ back) (8 * i) = ws[i] := by
  induction ws generalizing i with
  | nil => simp at h
  | cons w ws ih =>
      rw [List.flatMap_cons, List.append_assoc]
      cases i with
      | zero =>
          have hfront : (Bytes.ofNatLE 8 w.toNat ++ (ws.flatMap
              (fun w => Bytes.ofNatLE 8 w.toNat) ++ back)).take 8 = Bytes.ofNatLE 8 w.toNat :=
            List.take_left' (Bytes.length_ofNatLE 8 w.toNat)
          rw [wordAt, Nat.mul_zero, List.drop_zero, hfront]
          exact Bytes.word_ofNatLE w
      | succ i =>
          rw [List.length_cons] at h
          rw [wordAt, Nat.mul_succ, Nat.add_comm, ← List.drop_drop,
            List.drop_left' (Bytes.length_ofNatLE 8 w.toNat)]
          exact ih i (by omega)

/-- The chaining words are read off the front of a state. -/
theorem ofBytes_toBytes_append (s : Chaining) (back : Bytes) :
    ofBytes (s.toBytes ++ back) = s := by
  have hword (i : Nat) (h : i < 8) := wordAt_flatMap s.words back i h
  apply Chaining.ext
  · exact hword 0 (by decide)
  · exact hword 1 (by decide)
  · exact hword 2 (by decide)
  · exact hword 3 (by decide)
  · exact hword 4 (by decide)
  · exact hword 5 (by decide)
  · exact hword 6 (by decide)
  · exact hword 7 (by decide)

theorem ofNatLE_wordAt {b : Bytes} {offset : Nat} (h : offset + 8 ≤ b.length) :
    Bytes.ofNatLE 8 (wordAt b offset).toNat = (b.drop offset).take 8 := by
  have hlength : ((b.drop offset).take 8).length = 8 := by
    rw [List.length_take, List.length_drop]
    omega
  have hword : (wordAt b offset).toNat = Bytes.toNatLE ((b.drop offset).take 8) % 256 ^ 8 :=
    UInt64.toNat_ofNat'
  rw [hword, Bytes.ofNatLE_mod, Bytes.ofNatLE_toNatLE_of_length hlength]

/-- The pieces of eight bytes, one behind the other, are the string they were cut from. -/
theorem flatMap_pieces (b : Bytes) (k : Nat) :
    ((List.range k).flatMap fun i => (b.drop (8 * i)).take 8) = b.take (8 * k) := by
  induction k with
  | zero => rfl
  | succ k ih =>
      rw [List.range_succ, List.flatMap_append, ih, List.flatMap_singleton, Nat.mul_succ,
        List.take_add]

/-- Chaining words are written back as they were read. -/
theorem toBytes_ofBytes {b : Bytes} (h : 64 ≤ b.length) : (ofBytes b).toBytes = b.take 64 := by
  have hwords : (ofBytes b).words = (List.range 8).map fun i => wordAt b (8 * i) := rfl
  have hpiece : ∀ i ∈ List.range 8,
      Bytes.ofNatLE 8 (wordAt b (8 * i)).toNat = (b.drop (8 * i)).take 8 := by
    intro i hi
    have hlt := List.mem_range.mp hi
    exact ofNatLE_wordAt (by omega)
  rw [toBytes, hwords, List.flatMap_map, List.flatMap_congr hpiece, flatMap_pieces]

/-- Where every word is written as eight bytes, those of the `i`-th stand from place `8 * i` on. -/
theorem getElem?_flatMap_of_length {write : UInt64 → Bytes} (hwrite : ∀ w, (write w).length = 8)
    {ws : List UInt64} {i j : Nat} {w : UInt64} (h : ws[i]? = some w) (hj : j < 8)
    (back : Bytes) : (ws.flatMap write ++ back)[8 * i + j]? = (write w)[j]? := by
  induction ws generalizing i with
  | nil => cases h
  | cons v ws ih =>
      have hlength := hwrite v
      rw [List.flatMap_cons, List.append_assoc]
      cases i with
      | zero =>
          cases h
          rw [Nat.mul_zero, Nat.zero_add, List.getElem?_append_left (by rwa [hlength])]
      | succ i =>
          have hplace : 8 * (i + 1) + j - 8 = 8 * i + j := by omega
          rw [List.getElem?_append_right (by omega), hlength, hplace]
          exact ih h

/-- In a state, the lowest byte of a word comes first. -/
theorem getElem?_flatMap {ws : List UInt64} {i j : Nat} {w : UInt64} (h : ws[i]? = some w)
    (hj : j < 8) (back : Bytes) :
    (ws.flatMap (fun w => Bytes.ofNatLE 8 w.toNat) ++ back)[8 * i + j]? =
      some (Bytes.byteAt w.toNat j) := by
  rw [getElem?_flatMap_of_length (fun _ => Bytes.length_ofNatLE 8 _) h hj]
  exact Bytes.getElem?_ofNatLE _ hj

/-- In a digest, the highest byte of a word comes first. -/
theorem getElem?_digest {s : Chaining} {i j : Nat} {w : UInt64} (h : s.words[i]? = some w)
    (hj : j < 8) : s.digest.toList[8 * i + j]? = some (Bytes.byteAt w.toNat (7 - j)) := by
  have hbytes := getElem?_flatMap_of_length (fun v => Bytes.length_ofNatBE 8 v.toNat) h hj []
  rw [List.append_nil, Bytes.getElem?_ofNatBE _ hj] at hbytes
  exact hbytes

end Chaining

namespace Midstate

/-- A state made of chaining words, a counter and a block is taken apart again. -/
theorem stored_parts {b : ByteVec Size.hashState} {s : Chaining} {counter : Bytes}
    {block : Block} (hb : b.toList = s.toBytes ++ counter ++ block.toList)
    (hcounter : counter.length = 16) :
    Chaining.ofBytes b.toList = s ∧ storedCounter b = counter ∧ storedBlock b = block := by
  have hfront : (s.toBytes ++ counter).length = blockOffset := by
    simp [hcounter]
  refine ⟨?_, ?_, ?_⟩
  · rw [hb, List.append_assoc, Chaining.ofBytes_toBytes_append]
  · rw [storedCounter, hb, List.append_assoc, List.drop_left' s.length_toBytes,
      List.take_left' hcounter]
  · apply ByteVec.ext
    change b.toList.drop blockOffset = block.toList
    rw [hb, List.drop_left' hfront]

/-- The layout that counts bytes loses nothing. -/
theorem ofBytes_toBytes (s : Midstate) : ofBytes s.toBytes = s := by
  have hcounter := Bytes.length_ofNatLE 16 s.count.toNat
  obtain ⟨hchaining, hstored, hblock⟩ :=
    @stored_parts s.toBytes s.chaining _ s.block rfl hcounter
  have hlt : s.count.toNat < 256 ^ 16 := s.count.isLt
  rw [ofBytes, hchaining, hstored, hblock, Bytes.toNatLE_ofNatLE, Nat.mod_eq_of_lt hlt,
    BitVec.ofNat_toNat, BitVec.setWidth_eq]

/-- Every string is what some midstate is stored as, by the layout that counts bytes. -/
theorem toBytes_ofBytes (b : ByteVec Size.hashState) : (ofBytes b).toBytes = b := by
  have hroom : 64 ≤ b.toList.length := by
    rw [b.length_toList]
    decide
  have hcounter : Bytes.ofNatLE 16 (ofBytes b).count.toNat = storedCounter b := by
    have hlength : (storedCounter b).length = 16 := by simp [storedCounter]
    have hcount : (ofBytes b).count.toNat = Bytes.toNatLE (storedCounter b) % 256 ^ 16 :=
      BitVec.toNat_ofNat _ _
    rw [hcount, Bytes.ofNatLE_mod, Bytes.ofNatLE_toNatLE_of_length hlength]
  apply ByteVec.ext
  calc (ofBytes b).toBytes.toList
      = (Chaining.ofBytes b.toList).toBytes ++ Bytes.ofNatLE 16 (ofBytes b).count.toNat ++
          b.toList.drop 80 := rfl
    _ = b.toList.take 64 ++ (b.toList.drop 64).take 16 ++ b.toList.drop 80 := by
        rw [Chaining.toBytes_ofBytes hroom, hcounter, storedCounter]
    _ = b.toList := by rw [← List.take_add, List.take_append_drop]

/-- The layout that counts bits drops the three bits of the counter that do not fit. -/
theorem ofBitCountedBytes_toBitCountedBytes (s : Midstate) :
    ofBitCountedBytes s.toBitCountedBytes =
      { s with count := BitVec.ofNat 128 (s.count.toNat % 2 ^ 125) } := by
  let bits := 8 * s.count.toNat
  have hhigh := Bytes.length_ofNatLE 8 (bits / 2 ^ 64)
  obtain ⟨hchaining, hstored, hblock⟩ :=
    @stored_parts s.toBitCountedBytes s.chaining
      (Bytes.ofNatLE 8 (bits / 2 ^ 64) ++ Bytes.ofNatLE 8 bits) s.block
      (by simp [toBitCountedBytes, bits]) (by simp)
  have hlt := s.count.isLt
  have hcount : (2 ^ 64 * (bits / 2 ^ 64 % 256 ^ 8) + bits % 256 ^ 8) / 8 =
      s.count.toNat % 2 ^ 125 := by
    simp only [bits]
    omega
  simp only [ofBitCountedBytes, hchaining, hstored, hblock, List.take_left' hhigh,
    List.drop_left' hhigh, Bytes.toNatLE_ofNatLE, Nat.pow_eq, hcount]

/-! ## Byte by byte -/

/-- Each byte of a midstate in its place: eight words of eight bytes, then the counter, then the
block. Of every number, the lowest byte comes first. -/
structure LiesIn (s : Midstate) (b : Bytes) : Prop where
  word : ∀ {i w}, s.chaining.words[i]? = some w → ∀ j < 8,
    b[8 * i + j]? = some (Bytes.byteAt w.toNat j)
  count : ∀ j < 16, b[64 + j]? = some (Bytes.byteAt s.count.toNat j)
  block : ∀ j < 128, b[80 + j]? = s.block.toList[j]?

theorem liesIn_toBytes (s : Midstate) (back : Bytes) : s.LiesIn (s.toBytes.toList ++ back) := by
  let counter := Bytes.ofNatLE 16 s.count.toNat
  have hwords := s.chaining.length_toBytes
  have hcounter : counter.length = 16 := Bytes.length_ofNatLE 16 _
  have hblock := s.block.length_toList
  have hbytes : s.toBytes.toList ++ back =
      s.chaining.toBytes ++ (counter ++ (s.block.toList ++ back)) := by
    simp only [toBytes, counter, List.append_assoc]
  rw [hbytes]
  refine ⟨?_, ?_, ?_⟩
  · intro i w hw j hj
    exact Chaining.getElem?_flatMap hw hj _
  · intro j hj
    rw [List.getElem?_append_right (by omega), hwords, Nat.add_sub_cancel_left,
      List.getElem?_append_left (by omega)]
    exact Bytes.getElem?_ofNatLE _ hj
  · intro j hj
    have hplace : 80 + j - 64 - 16 = j := by omega
    rw [List.getElem?_append_right (by omega), hwords, List.getElem?_append_right (by omega),
      hcounter, hplace, List.getElem?_append_left (by rwa [hblock])]

/-- The places leave nothing open: two strings in which one midstate lies begin alike. -/
theorem LiesIn.take_eq {s : Midstate} {a b : Bytes} (ha : s.LiesIn a) (hb : s.LiesIn b) :
    a.take Size.hashState = b.take Size.hashState := by
  -- A place belongs to a word, to the counter or to the block, and each fixes the byte there.
  have hplace (i : Nat) (hi : i < Size.hashState) : a[i]? = b[i]? := by
    rcases Nat.lt_or_ge i 64 with hword | hword
    · have hsplit : i = 8 * (i / 8) + i % 8 := (Nat.div_add_mod i 8).symm
      have hindex : i / 8 < s.chaining.words.length := Nat.div_lt_of_lt_mul hword
      have hj := Nat.mod_lt i (show 0 < 8 by decide)
      have hw := List.getElem?_eq_getElem hindex
      rw [hsplit, ha.word hw _ hj, hb.word hw _ hj]
    · rcases Nat.lt_or_ge i 80 with hcount | hcount
      · have hsplit : i = 64 + (i - 64) := by omega
        rw [hsplit, ha.count _ (by omega), hb.count _ (by omega)]
      · have hsplit : i = 80 + (i - 80) := by omega
        have hj : i - 80 < 128 := by
          simp only [Size.hashState] at hi
          omega
        rw [hsplit, ha.block _ hj, hb.block _ hj]
  apply List.ext_getElem?
  intro i
  rw [List.getElem?_take, List.getElem?_take]
  by_cases hi : i < Size.hashState
  · rw [if_pos hi, if_pos hi, hplace i hi]
  · rw [if_neg hi, if_neg hi]

/-- A midstate lies at the front of a string if the string begins with its stored form, and
only then. -/
theorem liesIn_iff {s : Midstate} {b : Bytes} :
    s.LiesIn b ↔ b.take Size.hashState = s.toBytes.toList := by
  constructor
  · intro h
    have hfront := h.take_eq (s.liesIn_toBytes [])
    rwa [List.append_nil, List.take_of_length_le (Nat.le_of_eq s.toBytes.length_toList)] at hfront
  · intro hfront
    rw [← List.take_append_drop Size.hashState b, hfront]
    exact s.liesIn_toBytes _

end Midstate

end Strongbox.Sha512
