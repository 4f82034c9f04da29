import Strongbox.Bytes

/-! The Poly1305 one-time authenticator, computed on natural numbers. -/

namespace Strongbox.Poly1305

def modulus : Nat := Nat.pow 2 130 - 5

/-- The multiplier made of the first half of a key, with its clamped bits cleared. -/
def multiplier (key : ByteVec 32) : Nat :=
  Bytes.toNatLE (key.toList.take 16) &&& 0x0ffffffc0ffffffc0ffffffc0fffffff

/-- Evaluates `n` blocks of sixteen bytes, each with a one bit behind it. -/
def evaluate (r : Nat) : (n : Nat) → (acc : Nat) → Bytes → Nat
  | 0, acc, _ => acc
  | n + 1, acc, message =>
    let block := Bytes.toNatLE (message.take 16 ++ [1])
    evaluate r n ((acc + block) * r % modulus) (message.drop 16)

/-- The tag of a message under a key used once. -/
def tag (key : ByteVec 32) (message : Bytes) : ByteVec 16 :=
  let acc := evaluate (multiplier key) ((message.length + 15) / 16) 0 message
  ByteVec.ofNatLE 16 (acc + Bytes.toNatLE (key.toList.drop 16))

end Strongbox.Poly1305
