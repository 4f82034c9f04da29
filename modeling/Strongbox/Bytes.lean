/-! Byte strings, as lists, with the fixed-width integer codecs used by the
primitives. Encoding and decoding recurse on the width, so each law is one
induction. -/

namespace Strongbox

abbrev Bytes := List UInt8

namespace Bytes

def zeros (n : Nat) : Bytes := List.replicate n 0

@[simp] theorem length_zeros (n : Nat) : (zeros n).length = n := by simp [zeros]

@[simp] theorem zeros_zero : zeros 0 = [] := rfl

theorem zeros_add (m n : Nat) : zeros (m + n) = zeros m ++ zeros n := by
  simp [zeros, List.replicate_append_replicate]

@[simp] theorem take_zeros (m n : Nat) : (zeros n).take m = zeros (min m n) := by
  simp [zeros, List.take_replicate]

@[simp] theorem drop_zeros (m n : Nat) : (zeros n).drop m = zeros (n - m) := by
  simp [zeros, List.drop_replicate]

@[simp] theorem mem_zeros {b : UInt8} {n : Nat} : b ∈ zeros n ↔ n ≠ 0 ∧ b = 0 := by
  simp [zeros, List.mem_replicate]

/-- The bytewise exclusive or, as long as the shorter operand. -/
def xor (a b : Bytes) : Bytes := List.zipWith (fun x y => x ^^^ y) a b

@[simp] theorem length_xor (a b : Bytes) : (xor a b).length = min a.length b.length := by
  simp [xor]

theorem take_xor (n : Nat) (a b : Bytes) : (xor a b).take n = xor (a.take n) (b.take n) := by
  simp [xor, List.take_zipWith]

theorem drop_xor (n : Nat) (a b : Bytes) : (xor a b).drop n = xor (a.drop n) (b.drop n) := by
  simp [xor, List.drop_zipWith]

/-- A mask that covers the data is undone by applying it again. -/
theorem xor_xor_cancel_right {a b : Bytes} (h : a.length ≤ b.length) : xor (xor a b) b = a := by
  induction a generalizing b with
  | nil => simp [xor]
  | cons x a ih =>
    cases b with
    | nil => simp at h
    | cons y b =>
      have hab : a.length ≤ b.length := by simpa using h
      have hxy : x ^^^ y ^^^ y = x := by rw [UInt8.xor_assoc, UInt8.xor_self, UInt8.xor_zero]
      simp only [xor, List.zipWith_cons_cons, hxy, List.cons.injEq, true_and]
      exact ih hab

/-- The little-endian form of `value` in `width` bytes; higher bits are dropped. -/
def ofNatLE : (width value : Nat) → Bytes
  | 0, _ => []
  | width + 1, value => UInt8.ofNat value :: ofNatLE width (value / 256)

def toNatLE : Bytes → Nat
  | [] => 0
  | b :: rest => b.toNat + 256 * toNatLE rest

/-- The big-endian form of `value` in `width` bytes. -/
def ofNatBE (width value : Nat) : Bytes := (ofNatLE width value).reverse

def toNatBE (b : Bytes) : Nat := toNatLE b.reverse

@[simp] theorem length_ofNatLE (width value : Nat) : (ofNatLE width value).length = width := by
  induction width generalizing value with
  | zero => rfl
  | succ width ih => simp [ofNatLE, ih]

@[simp] theorem length_ofNatBE (width value : Nat) : (ofNatBE width value).length = width := by
  simp [ofNatBE]

theorem ofNatLE_toNatLE (b : Bytes) : ofNatLE b.length (toNatLE b) = b := by
  induction b with
  | nil => rfl
  | cons x b ih =>
    have hx : x.toNat < 256 := x.toNat_lt
    have hd : (x.toNat + 256 * toNatLE b) / 256 = toNatLE b := by omega
    have hm : UInt8.ofNat (x.toNat + 256 * toNatLE b) = x := by
      apply UInt8.toNat_inj.mp
      rw [UInt8.toNat_ofNat']
      omega
    simp [ofNatLE, toNatLE, hd, hm, ih]

/-- `overwrite b offset new` puts `new` over the bytes of `b` from `offset` on. -/
def overwrite (b : Bytes) (offset : Nat) (new : Bytes) : Bytes :=
  b.take offset ++ new ++ b.drop (offset + new.length)

theorem length_overwrite {b new : Bytes} {offset : Nat} (h : offset + new.length ≤ b.length) :
    (overwrite b offset new).length = b.length := by
  simp [overwrite]
  omega

end Bytes

/-- A byte string of exactly `n` bytes. -/
@[ext] structure ByteVec (n : Nat) where
  toList : Bytes
  length_toList : toList.length = n
deriving DecidableEq

namespace ByteVec

attribute [simp] length_toList

/-- The string itself, if it has the wanted length. -/
def ofList? (n : Nat) (b : Bytes) : Option (ByteVec n) :=
  if h : b.length = n then some ⟨b, h⟩ else none

def ofList (b : Bytes) : ByteVec b.length := ⟨b, rfl⟩

@[simp] theorem toList_ofList (b : Bytes) : (ofList b).toList = b := rfl

/-- The first `n` bytes of a string, filled up with zeros if there are fewer. -/
def ofFront (n : Nat) (b : Bytes) : ByteVec n :=
  let front := b.take n
  ⟨front ++ Bytes.zeros (n - front.length), by
    simp only [front, List.length_append, List.length_take, Bytes.length_zeros]
    omega⟩

theorem toList_ofFront {n : Nat} {b : Bytes} (h : n ≤ b.length) :
    (ofFront n b).toList = b.take n := by
  simp [ofFront, h]

def replicate (n : Nat) (b : UInt8) : ByteVec n := ⟨List.replicate n b, by simp⟩

def zeros (n : Nat) : ByteVec n := ⟨Bytes.zeros n, by simp⟩

@[simp] theorem toList_zeros (n : Nat) : (zeros n).toList = Bytes.zeros n := rfl

def ofNatLE (n value : Nat) : ByteVec n := ⟨Bytes.ofNatLE n value, by simp⟩

def toNatLE {n : Nat} (v : ByteVec n) : Nat := Bytes.toNatLE v.toList

def append {m n : Nat} (a : ByteVec m) (b : ByteVec n) : ByteVec (m + n) :=
  ⟨a.toList ++ b.toList, by simp⟩

def first {n : Nat} (m : Nat) (v : ByteVec n) (h : m ≤ n := by decide) : ByteVec m :=
  ⟨v.toList.take m, by rw [List.length_take, v.length_toList, Nat.min_eq_left h]⟩

def rest {n : Nat} (m : Nat) (v : ByteVec n) : ByteVec (n - m) := ⟨v.toList.drop m, by simp⟩

def map {n : Nat} (f : UInt8 → UInt8) (v : ByteVec n) : ByteVec n := ⟨v.toList.map f, by simp⟩

def xor {n : Nat} (a b : ByteVec n) : ByteVec n := ⟨Bytes.xor a.toList b.toList, by simp⟩

/-- Puts `new` over the bytes from `offset` on; what does not fit changes nothing. -/
def overwrite {n : Nat} (v : ByteVec n) (offset : Nat) (new : Bytes) : ByteVec n :=
  if h : offset + new.length ≤ n then
    ⟨Bytes.overwrite v.toList offset new, by rw [Bytes.length_overwrite (by simpa using h)]; simp⟩
  else v

theorem toList_overwrite {n : Nat} {v : ByteVec n} {offset : Nat} {new : Bytes}
    (h : offset + new.length ≤ n) :
    (v.overwrite offset new).toList = Bytes.overwrite v.toList offset new := by
  simp [overwrite, h]

end ByteVec

end Strongbox
