import Strongbox.Proofs.Bytes
import Strongbox.Proofs.Runs

/-! # Slices

Parts of a buffer, given by their bounds. Bounds that a buffer does not have break off the run,
and so do bytes that do not fit between the bounds they are copied to. -/

namespace Strongbox

/-- The bytes from `start` up to `stop`. -/
def Bytes.slice (b : Bytes) (start stop : Nat) : Except Violation Bytes :=
  if start ≤ stop ∧ stop ≤ b.length then .ok ((b.drop start).take (stop - start))
  else .error .outOfRange

/-- Copies `new` over the bytes from `start` up to `stop`. -/
def ByteVec.copy {n : Nat} (v : ByteVec n) (start stop : Nat) (new : Bytes) :
    Except Violation (ByteVec n) :=
  if start ≤ stop ∧ stop ≤ n ∧ new.length = stop - start then .ok (v.overwrite start new)
  else .error .outOfRange

namespace Bytes

theorem slice_of_le {b : Bytes} {start stop : Nat} (h : start ≤ stop) (hstop : stop ≤ b.length) :
    b.slice start stop = .ok ((b.drop start).take (stop - start)) :=
  if_pos ⟨h, hstop⟩

theorem slice_front {b : Bytes} {stop : Nat} (h : stop ≤ b.length) :
    b.slice 0 stop = .ok (b.take stop) :=
  slice_of_le (Nat.zero_le stop) h

theorem slice_back {b : Bytes} {start stop : Nat} (h : start ≤ stop) (hstop : stop = b.length) :
    b.slice start stop = .ok (b.drop start) := by
  have hall : (b.drop start).length ≤ stop - start :=
    Nat.le_of_eq (by rw [List.length_drop, hstop])
  rw [slice_of_le h (Nat.le_of_eq hstop), List.take_of_length_le hall]

end Bytes

namespace ByteVec

variable {n : Nat}

theorem copy_of_bounds (v : ByteVec n) {start stop : Nat} {new : Bytes}
    (h : start + new.length = stop) (hstop : stop ≤ n) :
    v.copy start stop new = .ok (v.overwrite start new) :=
  if_pos ⟨by omega, hstop, by omega⟩

theorem copy_front (v : ByteVec n) {stop : Nat} {new : Bytes} (h : new.length = stop)
    (hstop : stop ≤ n) : v.copy 0 stop new = .ok (v.overwrite 0 new) :=
  copy_of_bounds v (by rw [h, Nat.zero_add]) hstop

@[simp] theorem overwrite_nil (v : ByteVec n) (offset : Nat) : v.overwrite offset [] = v := by
  by_cases h : offset + ([] : Bytes).length ≤ n
  · apply ByteVec.ext
    rw [toList_overwrite h, Bytes.overwrite, List.append_nil]
    exact List.take_append_drop offset v.toList
  · exact dif_neg h

/-- Bytes that are written one behind the other are written as one string. -/
theorem overwrite_overwrite (v : ByteVec n) {start : Nat} {x y : Bytes}
    (h : start + x.length + y.length ≤ n) :
    (v.overwrite start x).overwrite (start + x.length) y = v.overwrite start (x ++ y) := by
  have hx : start + x.length ≤ n := by omega
  have hxy : start + (x ++ y).length ≤ n := by
    rw [List.length_append]
    omega
  have hfront : (v.toList.take start ++ x).length = start + x.length := by
    rw [List.length_append, List.length_take, length_toList]
    omega
  apply ByteVec.ext
  rw [toList_overwrite h, toList_overwrite hx, toList_overwrite hxy]
  rw [Bytes.overwrite, Bytes.overwrite, Bytes.overwrite, List.take_left' hfront, ← List.drop_drop,
    List.drop_left' hfront, List.drop_drop, List.length_append]
  simp only [List.append_assoc, Nat.add_assoc]

theorem copy_behind (v : ByteVec n) {start mid stop : Nat} {x y : Bytes}
    (hx : start + x.length = mid) (hy : mid + y.length = stop) (hstop : stop ≤ n) :
    (v.overwrite start x).copy mid stop y = .ok (v.overwrite start (x ++ y)) := by
  rw [copy_of_bounds _ hy hstop, ← hx, overwrite_overwrite _ (by omega)]

/-- A back and then a front that meets it are all that is left. -/
theorem toList_overwrite_back_front (v : ByteVec n) {k : Nat} {front back : Bytes}
    (hfront : front.length = k) (hback : k + back.length = n) :
    ((v.overwrite k back).overwrite 0 front).toList = front ++ back := by
  have hlength : (v.toList.take k).length = k := by
    rw [List.length_take, length_toList]
    omega
  rw [toList_overwrite_zero _ (by omega), toList_overwrite (Nat.le_of_eq hback), Bytes.overwrite,
    hfront, hback, List.drop_of_length_le (Nat.le_of_eq v.length_toList), List.append_nil,
    List.drop_left' hlength]

/-- What is written over a whole buffer is all that is left. -/
theorem overwrite_whole (v w : ByteVec n) : v.overwrite 0 w.toList = w := by
  apply ByteVec.ext
  have hnone : v.toList.drop n = [] := List.drop_of_length_le (Nat.le_of_eq v.length_toList)
  rw [toList_overwrite_front v w (Nat.le_refl n), hnone, List.append_nil]

theorem copy_whole (v w : ByteVec n) : v.copy 0 n w.toList = .ok w := by
  rw [copy_front v w.length_toList (Nat.le_refl n), overwrite_whole]

end ByteVec

end Strongbox
