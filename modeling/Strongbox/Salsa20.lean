import Strongbox.Key

/-! The Salsa20 permutation and what is built on it: HSalsa20, which derives keys,
and the XSalsa20 keystream, in blocks of 64 bytes. -/

namespace Strongbox.Salsa20

abbrev Words := Vector UInt32 16

def rotateLeft (x n : UInt32) : UInt32 := x <<< n ||| x >>> (32 - n)

/-- The quarter round on four of the words. -/
def quarterRound (v : Words) (a b c d : Fin 16) : Words :=
  let v := v.set b (v[b] ^^^ rotateLeft (v[a] + v[d]) 7)
  let v := v.set c (v[c] ^^^ rotateLeft (v[b] + v[a]) 9)
  let v := v.set d (v[d] ^^^ rotateLeft (v[c] + v[b]) 13)
  v.set a (v[a] ^^^ rotateLeft (v[d] + v[c]) 18)

/-- A round on the columns, then one on the rows. -/
def doubleRound (v : Words) : Words :=
  let v := quarterRound v 0 4 8 12
  let v := quarterRound v 5 9 13 1
  let v := quarterRound v 10 14 2 6
  let v := quarterRound v 15 3 7 11
  let v := quarterRound v 0 1 2 3
  let v := quarterRound v 5 6 7 4
  let v := quarterRound v 10 11 8 9
  quarterRound v 15 12 13 14

def permute (v : Words) : Words := (List.range 10).foldl (fun v _ => doubleRound v) v

def word (b : Bytes) (i : Nat) : UInt32 := UInt32.ofNat (Bytes.toNatLE ((b.drop (4 * i)).take 4))

/-- The state made of a key and sixteen bytes of input, with the constants of the
32-byte key form on its diagonal. -/
def state (key : ByteVec 32) (input : ByteVec 16) : Words :=
  let k := word key.toList
  let n := word input.toList
  #v[0x61707865, k 0, k 1, k 2, k 3, 0x3320646e, n 0, n 1, n 2, n 3, 0x79622d32,
    k 4, k 5, k 6, k 7, 0x6b206574]

def wordBytes (w : UInt32) : Bytes := Bytes.ofNatLE 4 w.toNat

/-- Derives a key from a key and sixteen bytes of input. -/
def hsalsa20 (key : ByteVec 32) (input : ByteVec 16) : ByteVec 32 :=
  let v := permute (state key input)
  ⟨[v[0], v[5], v[10], v[15], v[6], v[7], v[8], v[9]].flatMap wordBytes, by simp [wordBytes]⟩

/-- One block of the Salsa20 keystream. -/
def block (key : ByteVec 32) (nonce : ByteVec 8) (counter : Nat) : ByteVec 64 :=
  let v := state key (nonce.append (ByteVec.ofNatLE 8 counter))
  let w := permute v
  ⟨(List.finRange 16).flatMap fun i => wordBytes (v[i] + w[i]), by
    simp only [List.length_flatMap, wordBytes, Bytes.length_ofNatLE]
    rfl⟩

/-- The `i`-th block of the XSalsa20 keystream. -/
def xblock (key : SymmetricKey) (nonce : Nonce) (i : Nat) : ByteVec 64 :=
  block (hsalsa20 key.toByteVec (nonce.first 16)) (nonce.rest 16) i

end Strongbox.Salsa20
