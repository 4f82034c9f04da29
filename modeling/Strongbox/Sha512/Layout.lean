import Strongbox.Sha512.Midstate

/-! Two ways to keep a midstate in 208 bytes. Both put the chaining words first,
each little-endian, and the block last; they differ in the counter between them. -/

namespace Strongbox.Sha512

namespace Chaining

def toBytes (s : Chaining) : Bytes := s.words.flatMap fun w => Bytes.ofNatLE 8 w.toNat

@[simp] theorem length_toBytes (s : Chaining) : s.toBytes.length = 64 := by
  simp [toBytes, words]

def wordAt (b : Bytes) (offset : Nat) : UInt64 :=
  UInt64.ofNat (Bytes.toNatLE ((b.drop offset).take 8))

def ofBytes (b : Bytes) : Chaining :=
  ⟨wordAt b 0, wordAt b 8, wordAt b 16, wordAt b 24, wordAt b 32, wordAt b 40, wordAt b 48,
    wordAt b 56⟩

end Chaining

@[simp] abbrev counterOffset : Nat := 64

@[simp] abbrev blockOffset : Nat := 80

namespace Midstate

/-- The waiting block as stored in a state. -/
def storedBlock (b : ByteVec Size.hashState) : Block := b.rest blockOffset

def storedCounter (b : ByteVec Size.hashState) : Bytes :=
  (b.toList.drop counterOffset).take 16

/-- The layout whose counter is the number of bytes, little-endian. -/
def toBytes (s : Midstate) : ByteVec Size.hashState :=
  ⟨s.chaining.toBytes ++ Bytes.ofNatLE 16 s.count.toNat ++ s.block.toList, by simp⟩

def ofBytes (b : ByteVec Size.hashState) : Midstate :=
  ⟨.ofBytes b.toList, BitVec.ofNat 128 (Bytes.toNatLE (storedCounter b)), storedBlock b⟩

/-- The layout whose counter is the number of bits, as two little-endian words with
the high word first. -/
def toBitCountedBytes (s : Midstate) : ByteVec Size.hashState :=
  let bits := 8 * s.count.toNat
  ⟨s.chaining.toBytes ++ Bytes.ofNatLE 8 (bits / Nat.pow 2 64) ++ Bytes.ofNatLE 8 bits
    ++ s.block.toList, by simp⟩

def ofBitCountedBytes (b : ByteVec Size.hashState) : Midstate :=
  let counter := storedCounter b
  let bits := Nat.pow 2 64 * Bytes.toNatLE (counter.take 8) + Bytes.toNatLE (counter.drop 8)
  ⟨.ofBytes b.toList, BitVec.ofNat 128 (bits / 8), storedBlock b⟩

end Midstate

end Strongbox.Sha512
