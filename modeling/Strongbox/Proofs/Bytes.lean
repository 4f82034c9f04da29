import Mathlib.Algebra.Group.Nat.Defs
import Strongbox.Bytes

/-! # Laws of byte strings

What the integer codecs lose, what a change of one byte is, and what a vector shows of the
string it was made of. -/

namespace Strongbox

namespace Bytes

/-! ## Integers -/

theorem toNatLE_ofNatLE (width value : Nat) :
    toNatLE (ofNatLE width value) = value % 256 ^ width := by
  induction width generalizing value with
  | zero => simp [ofNatLE, toNatLE, Nat.mod_one]
  | succ width ih =>
    have hb : (UInt8.ofNat value).toNat = value % 256 := by simp [UInt8.toNat_ofNat']
    rw [ofNatLE, toNatLE, ih, hb, Nat.pow_succ, Nat.mul_comm (256 ^ width), Nat.mod_mul]

/-- The bits above the width have no influence. -/
theorem ofNatLE_mod (width value : Nat) :
    ofNatLE width (value % 256 ^ width) = ofNatLE width value := by
  have h := ofNatLE_toNatLE (ofNatLE width value)
  rwa [length_ofNatLE, toNatLE_ofNatLE] at h

theorem ofNatBE_mod (width value : Nat) :
    ofNatBE width (value % 256 ^ width) = ofNatBE width value := by
  rw [ofNatBE, ofNatBE, ofNatLE_mod]

/-- A string is written back from its number. -/
theorem ofNatLE_toNatLE_of_length {b : Bytes} {width : Nat} (h : b.length = width) :
    ofNatLE width (toNatLE b) = b := by
  rw [← h]
  exact ofNatLE_toNatLE b

/-- The `j`-th byte of a number, the lowest being the one at place zero. -/
def byteAt (value j : Nat) : UInt8 := UInt8.ofNat (value / 256 ^ j)

theorem getElem?_ofNatLE (value : Nat) {width j : Nat} (h : j < width) :
    (ofNatLE width value)[j]? = some (byteAt value j) := by
  induction width generalizing value j with
  | zero => exact absurd h (Nat.not_lt_zero j)
  | succ width ih =>
    cases j with
    | zero => rw [ofNatLE, List.getElem?_cons_zero, byteAt, Nat.pow_zero, Nat.div_one]
    | succ j =>
      rw [ofNatLE, List.getElem?_cons_succ, ih _ (Nat.lt_of_succ_lt_succ h), byteAt, byteAt,
        Nat.div_div_eq_div_mul, Nat.pow_succ']

/-- The highest byte comes first. -/
theorem getElem?_ofNatBE (value : Nat) {width j : Nat} (h : j < width) :
    (ofNatBE width value)[j]? = some (byteAt value (width - 1 - j)) := by
  have hlength := length_ofNatLE width value
  rw [ofNatBE, List.getElem?_reverse (by rwa [hlength]), hlength]
  exact getElem?_ofNatLE value (by omega)

/-- A stored word reads back. -/
theorem word_ofNatLE (w : UInt64) : UInt64.ofNat (toNatLE (ofNatLE 8 w.toNat)) = w := by
  have hlt : w.toNat < 256 ^ 8 := w.toNat_lt
  rw [toNatLE_ofNatLE, Nat.mod_eq_of_lt hlt, UInt64.ofNat_toNat]

/-! ## Masks and overwriting -/

/-- Zeros under a mask show the mask. -/
theorem zeros_xor (b : Bytes) : xor (zeros b.length) b = b := by
  induction b with
  | nil => rfl
  | cons x b ih =>
    have hx : (0 : UInt8) ^^^ x = x := UInt8.zero_xor
    simp only [xor, zeros, List.length_cons, List.replicate_succ, List.zipWith_cons_cons, hx,
      List.cons.injEq, true_and]
    exact ih

/-- At offset zero the new bytes come first. -/
theorem overwrite_zero (b new : Bytes) : overwrite b 0 new = new ++ b.drop new.length := by
  simp [overwrite]

/-- Behind the offset stand the new bytes, and elsewhere the old ones. -/
theorem getElem?_overwrite {b new : Bytes} {offset : Nat} (h : offset + new.length ≤ b.length)
    (i : Nat) :
    (overwrite b offset new)[i]? =
      if offset ≤ i ∧ i < offset + new.length then new[i - offset]? else b[i]? := by
  have hfront : (b.take offset).length = offset := List.length_take_of_le (by omega)
  rw [overwrite, List.append_assoc]
  rcases Nat.lt_or_ge i offset with hi | hi
  · rw [List.getElem?_append_left (by omega), List.getElem?_take_of_lt hi, if_neg (by omega)]
  · rw [List.getElem?_append_right (by omega), hfront]
    rcases Nat.lt_or_ge i (offset + new.length) with hnew | hold
    · rw [List.getElem?_append_left (by omega), if_pos ⟨hi, hnew⟩]
    · rw [List.getElem?_append_right (by omega), List.getElem?_drop, if_neg (by omega)]
      congr 1
      omega

/-! ## One byte changed -/

/-- The second string is the first with one byte changed to another value. -/
def Altered (a b : Bytes) : Prop :=
  ∃ front x y back, a = front ++ x :: back ∧ b = front ++ y :: back ∧ x ≠ y

theorem Altered.ne {a b : Bytes} (h : Altered a b) : a ≠ b := by
  obtain ⟨front, x, y, back, rfl, rfl, hne⟩ := h
  intro heq
  exact hne (List.cons.inj (List.append_cancel_left heq)).1

theorem Altered.length_eq {a b : Bytes} (h : Altered a b) : b.length = a.length := by
  obtain ⟨front, x, y, back, rfl, rfl, -⟩ := h
  rw [List.length_append, List.length_append, List.length_cons, List.length_cons]

/-- A change in a string put together of two is a change in one of them. -/
theorem Altered.of_append {a a' b : Bytes} (h : Altered (a ++ a') b) :
    (∃ c, Altered a c ∧ b = c ++ a') ∨ (∃ c, Altered a' c ∧ b = a ++ c) := by
  obtain ⟨front, x, y, back, heq, rfl, hne⟩ := h
  rcases List.append_eq_append_iff.mp heq with ⟨mid, rfl, rfl⟩ | ⟨mid, rfl, hback⟩
  · right
    exact ⟨mid ++ y :: back, ⟨mid, x, y, back, rfl, rfl, hne⟩, List.append_assoc _ _ _⟩
  · cases mid with
    | nil =>
        rw [List.nil_append] at hback
        refine .inr ⟨y :: back, ⟨[], x, y, back, hback.symm, rfl, hne⟩, ?_⟩
        rw [List.append_nil]
    | cons z mid =>
        rw [List.cons_append, List.cons.injEq] at hback
        obtain ⟨rfl, rfl⟩ := hback
        refine .inl ⟨front ++ y :: mid, ⟨front, x, y, mid, rfl, rfl, hne⟩, ?_⟩
        rw [List.append_assoc, List.cons_append]

end Bytes

namespace ByteVec

theorem toList_overwrite_zero {n : Nat} (v : ByteVec n) {new : Bytes} (h : new.length ≤ n) :
    (v.overwrite 0 new).toList = new ++ v.toList.drop new.length := by
  rw [toList_overwrite (by rwa [Nat.zero_add]), Bytes.overwrite_zero]

theorem le_of_append {m n : Nat} {v : ByteVec n} {front : ByteVec m} {back : Bytes}
    (h : v.toList = front.toList ++ back) : m ≤ n := by
  have hlength := congrArg List.length h
  rw [List.length_append, length_toList, length_toList] at hlength
  omega

theorem first_of_append {m n : Nat} {v : ByteVec n} {front : ByteVec m} {back : Bytes}
    (h : v.toList = front.toList ++ back) (hle : m ≤ n) : v.first m hle = front := by
  apply ByteVec.ext
  change v.toList.take m = front.toList
  rw [h, List.take_left' front.length_toList]

theorem toList_overwrite_front {m n : Nat} (v : ByteVec n) (front : ByteVec m) (hle : m ≤ n) :
    (v.overwrite 0 front.toList).toList = front.toList ++ v.toList.drop m := by
  rw [toList_overwrite_zero v (by rwa [length_toList]), length_toList]

end ByteVec

end Strongbox
