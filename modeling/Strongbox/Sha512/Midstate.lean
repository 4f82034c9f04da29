import Strongbox.Sha512.Padding

/-! SHA-512 of a message that arrives in parts. Between the parts stand the
chaining words, the number of bytes so far, and a block whose front holds the
bytes not yet folded in; the bytes behind that front mean nothing. -/

namespace Strongbox.Sha512

@[ext] structure Midstate where
  chaining : Chaining
  count : BitVec 128
  block : Block
deriving DecidableEq

namespace Midstate

def initial : Midstate := ⟨.initial, 0, .zeros _⟩

def used (s : Midstate) : Nat := s.count.toNat % blockBytes

/-- Folds in the whole blocks of `data` and keeps the rest waiting. -/
def absorbAll (f : Compress) (s : Midstate) (data : Bytes) : Midstate :=
  let whole := data.length / blockBytes
  { s with
    chaining := absorb f whole s.chaining data
    block := s.block.overwrite 0 (data.drop (blockBytes * whole)) }

def update (f : Compress) (s : Midstate) (data : Bytes) : Midstate :=
  let used := s.used
  let counted := { s with count := s.count + BitVec.ofNat 128 data.length }
  if used = 0 then counted.absorbAll f data
  else
    let taken := data.take (blockBytes - used)
    let block := s.block.overwrite used taken
    if used + taken.length < blockBytes then { counted with block }
    else
      { counted with chaining := f s.chaining block, block }.absorbAll f (data.drop taken.length)

/-- The last block starts with at most this many bytes before its length field. -/
@[simp] abbrev lengthField : Nat := blockBytes - 16

/-- The waiting bytes, the mark and zeros. -/
def marked (s : Midstate) : Block :=
  (s.block.overwrite s.used [0x80]).overwrite (s.used + 1) (Bytes.zeros (blockBytes - 1 - s.used))

/-- The state after padding: the mark and the length complete one block or two. -/
def finish (f : Compress) (s : Midstate) : Midstate :=
  let bits := Bytes.ofNatBE 16 (8 * s.count.toNat)
  if s.used < lengthField then
    let block := s.marked.overwrite lengthField bits
    { s with chaining := f s.chaining block, block }
  else
    let block := (ByteVec.zeros blockBytes).overwrite lengthField bits
    { s with chaining := f (f s.chaining s.marked) block, block }

/-- The digest that a finished state holds. -/
def digest (s : Midstate) : Digest := s.chaining.digest

end Midstate

end Strongbox.Sha512
