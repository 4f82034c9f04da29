import Strongbox.Sha512.Compression

/-! SHA-512 of a whole message: the message is padded to whole blocks, which are
folded into the chaining words one after another. The compression function is a
parameter throughout. -/

namespace Strongbox.Sha512

/-- Folds the first `n` blocks of a string into the chaining words. -/
def absorb (f : Compress) : (n : Nat) → Chaining → Bytes → Chaining
  | 0, s, _ => s
  | n + 1, s, data => absorb f n (f s (.ofFront blockBytes data)) (data.drop blockBytes)

/-- The number of zero bytes between the mark and the length field. -/
def paddingZeros (length : Nat) : Nat := (239 - length % blockBytes) % blockBytes

/-- What follows a message of `length` bytes: a mark, zeros, and the length in bits
as a big-endian number of sixteen bytes. -/
def padding (length : Nat) : Bytes :=
  0x80 :: (Bytes.zeros (paddingZeros length) ++ Bytes.ofNatBE 16 (8 * length))

/-- Padding completes the last block. -/
theorem length_padding_mod (length : Nat) :
    (length + (padding length).length) % blockBytes = 0 := by
  simp [padding, paddingZeros]
  omega

/-- No fewer zeros would complete it. -/
theorem paddingZeros_le {length zeros : Nat} (h : (length + 1 + zeros + 16) % blockBytes = 0) :
    paddingZeros length ≤ zeros := by
  simp only [paddingZeros, blockBytes] at *
  omega

def digest (f : Compress) (message : Bytes) : Digest :=
  let padded := message ++ padding message.length
  (absorb f (padded.length / blockBytes) .initial padded).digest

end Strongbox.Sha512
