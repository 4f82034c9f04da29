import Strongbox.Session

/-! # Ciphers

A box is a tag in front of a masked message. Opening accepts exactly what sealing gives,
and so do the four guarded forms, here as functions of their bytes. -/

namespace Strongbox

/-- A mask that undoes itself, and a tag of what it masked. -/
structure Cipher where
  mask : Bytes → Bytes
  tag : Bytes → ByteVec Size.tag
  length_mask : ∀ b, (mask b).length = b.length
  mask_mask : ∀ b, mask (mask b) = b

namespace Cipher

variable (c : Cipher)

/-- `tag ++ body`. -/
def boxed (message : Bytes) : Bytes := (c.tag (c.mask message)).toList ++ c.mask message

/-- The message of a box whose tag is the one its body determines. -/
def opened? (box : Bytes) : Option Bytes :=
  if box.take Size.tag = (c.tag (box.drop Size.tag)).toList then
    some (c.mask (box.drop Size.tag))
  else none

@[simp] theorem length_boxed (message : Bytes) :
    (c.boxed message).length = Size.tag + message.length := by
  rw [boxed, List.length_append, ByteVec.length_toList, c.length_mask]

/-- A box opens to a message exactly if it is what sealing the message gives. -/
theorem opened?_eq_some_iff (box message : Bytes) :
    c.opened? box = some message ↔ c.boxed message = box := by
  constructor
  · intro h
    rw [opened?] at h
    split at h
    · rename_i htag
      rw [Option.some.injEq] at h
      rw [boxed, ← h, c.mask_mask, ← htag, List.take_append_drop]
    · cases h
  · intro h
    have htag : (c.tag (c.mask message)).toList.length = Size.tag := ByteVec.length_toList _
    rw [opened?, ← h, boxed, List.take_left' htag, List.drop_left' htag, c.mask_mask]
    simp

theorem length_of_opened? {box message : Bytes} (h : c.opened? box = some message) :
    box.length = Size.tag + message.length := by
  rw [← (c.opened?_eq_some_iff box message).mp h, length_boxed]

/-- The answer to a call that opens a box: its message behind zeros, or a rejection that
leaves some bytes. -/
def answer (box left : Bytes) : Answer Unit × Bytes :=
  match c.opened? box with
  | some message => (.ok (), Bytes.zeros Size.padding ++ message)
  | none => (.error {}, left)

/-! ## What the four operations do -/

/-- The outcome of sealing `padded` into `out`. -/
def sealOutcome (out padded : Bytes) : Written Unit :=
  if padded.length < Size.padding then .refuse (.capacity Size.padding padded.length) out
  else if out.length < padded.length then
    .refuse (.capacity padded.length out.length) out
  else
    ⟨.ok (), Bytes.zeros Size.sealedPadding ++ c.boxed (padded.drop Size.padding) ++
      out.drop padded.length⟩

/-- The outcome of sealing in place. -/
def sealInPlaceOutcome (buf : Bytes) : Written Unit :=
  if buf.length < Size.padding then .refuse (.capacity Size.padding buf.length) buf
  else ⟨.ok (), Bytes.zeros Size.sealedPadding ++ c.boxed (buf.drop Size.padding)⟩

/-- The outcome of opening a box that is long enough, with `rest` behind it. -/
def openOutcome (box rest : Bytes) : Written Unit :=
  match c.opened? (box.drop Size.sealedPadding) with
  | some message => ⟨.ok (), Bytes.zeros Size.padding ++ message ++ rest⟩
  | none => ⟨.error .failure, Bytes.zeros box.length ++ rest⟩

/-- The outcome of opening `box` into `out`. -/
def unsealOutcome (out box : Bytes) : Written Unit :=
  if box.length < Size.padding then .refuse .failure out
  else if out.length < box.length then .refuse (.capacity box.length out.length) out
  else c.openOutcome box (out.drop box.length)

/-- The outcome of opening in place. -/
def unsealInPlaceOutcome (buf : Bytes) : Written Unit :=
  if buf.length < Size.padding then .refuse .failure buf else c.openOutcome buf []

theorem openOutcome_eq_iff (box message rest : Bytes) :
    ⟨.ok (), Bytes.zeros Size.padding ++ message ++ rest⟩ = c.openOutcome box rest ↔
      c.boxed message = box.drop Size.sealedPadding := by
  rw [← opened?_eq_some_iff, openOutcome]
  cases c.opened? (box.drop Size.sealedPadding) with
  | none => simp
  | some opened => simp [eq_comm]

/-- Opening succeeds on what sealing gives, and on nothing else. -/
theorem unsealOutcome_eq_iff {out box message : Bytes} (hout : box.length ≤ out.length) :
    ⟨.ok (), Bytes.zeros Size.padding ++ message ++ out.drop box.length⟩ =
        c.unsealOutcome out box ↔
      box.length = Size.padding + message.length ∧
        c.boxed message = box.drop Size.sealedPadding := by
  by_cases hshort : box.length < Size.padding
  · rw [unsealOutcome, if_pos hshort]
    constructor
    · intro h
      cases h
    · rintro ⟨hlength, -⟩
      omega
  · rw [unsealOutcome, if_neg hshort, if_neg (Nat.not_lt.mpr hout), openOutcome_eq_iff]
    constructor
    · intro h
      refine ⟨?_, h⟩
      have hlength := congrArg List.length h
      simp only [length_boxed, List.length_drop, Size.tag, Size.padding, Size.sealedPadding]
        at hlength hshort ⊢
      omega
    · intro h
      exact h.2

theorem unsealInPlaceOutcome_eq_iff {box message : Bytes} :
    ⟨.ok (), Bytes.zeros Size.padding ++ message⟩ = c.unsealInPlaceOutcome box ↔
      box.length = Size.padding + message.length ∧
        c.boxed message = box.drop Size.sealedPadding := by
  have h := @unsealOutcome_eq_iff c box box message (Nat.le_refl _)
  rw [List.drop_length, List.append_nil] at h
  rw [← h, unsealOutcome, unsealInPlaceOutcome, List.drop_length, if_neg (Nat.lt_irrefl _)]

/-- An opening that succeeds writes the message behind zeros. -/
theorem openOutcome_of_ok {box rest : Bytes} (h : (c.openOutcome box rest).result = .ok ()) :
    ∃ message, (c.openOutcome box rest).buffer =
      Bytes.zeros Size.padding ++ message ++ rest := by
  cases hopened : c.opened? (box.drop Size.sealedPadding) with
  | none => simp [openOutcome, hopened] at h
  | some message => exact ⟨message, by simp [openOutcome, hopened]⟩

theorem unsealOutcome_of_ok {out box : Bytes} (h : (c.unsealOutcome out box).result = .ok ()) :
    c.unsealOutcome out box = c.openOutcome box (out.drop box.length) := by
  by_cases hshort : box.length < Size.padding
  · rw [unsealOutcome, if_pos hshort] at h
    cases h
  · by_cases hsmall : out.length < box.length
    · rw [unsealOutcome, if_neg hshort, if_pos hsmall] at h
      cases h
    · rw [unsealOutcome, if_neg hshort, if_neg hsmall]

theorem unsealInPlaceOutcome_of_ok {box : Bytes}
    (h : (c.unsealInPlaceOutcome box).result = .ok ()) :
    c.unsealInPlaceOutcome box = c.openOutcome box [] := by
  by_cases hshort : box.length < Size.padding
  · rw [unsealInPlaceOutcome, if_pos hshort] at h
    cases h
  · rw [unsealInPlaceOutcome, if_neg hshort]

/-- The bytes in front of the tag are not read. -/
theorem openOutcome_congr {box box' : Bytes} (rest : Bytes) (hlength : box'.length = box.length)
    (hdrop : box'.drop Size.sealedPadding = box.drop Size.sealedPadding) :
    c.openOutcome box' rest = c.openOutcome box rest := by
  rw [openOutcome, openOutcome, hdrop, hlength]

theorem unsealOutcome_congr (out : Bytes) {box box' : Bytes} (hlength : box'.length = box.length)
    (hdrop : box'.drop Size.sealedPadding = box.drop Size.sealedPadding) :
    c.unsealOutcome out box' = c.unsealOutcome out box := by
  rw [unsealOutcome, unsealOutcome, c.openOutcome_congr _ hlength hdrop, hlength]

theorem unsealInPlaceOutcome_congr {box box' : Bytes} (hlength : box'.length = box.length)
    (hdrop : box'.drop Size.sealedPadding = box.drop Size.sealedPadding) :
    (c.unsealInPlaceOutcome box').result = (c.unsealInPlaceOutcome box).result ∧
      (Size.padding ≤ box.length →
        c.unsealInPlaceOutcome box' = c.unsealInPlaceOutcome box) := by
  by_cases hshort : box.length < Size.padding
  · rw [unsealInPlaceOutcome, unsealInPlaceOutcome, hlength, if_pos hshort, if_pos hshort]
    exact ⟨rfl, fun hlong => absurd hshort (Nat.not_lt.mpr hlong)⟩
  · rw [unsealInPlaceOutcome, unsealInPlaceOutcome, hlength, if_neg hshort, if_neg hshort,
      c.openOutcome_congr [] hlength hdrop]
    exact ⟨rfl, fun _ => rfl⟩

/-- Exactly one tag goes with a body. -/
theorem unsealInPlaceOutcome_ok_iff (tag : ByteVec Size.tag) (body : Bytes) :
    (c.unsealInPlaceOutcome
        (Bytes.zeros Size.sealedPadding ++ (tag.toList ++ body))).result = .ok () ↔
      tag = c.tag body := by
  have htag : tag.toList.length = Size.tag := ByteVec.length_toList _
  have hlong : ¬ (Bytes.zeros Size.sealedPadding ++ (tag.toList ++ body)).length <
      Size.padding := by
    simp only [List.length_append, Bytes.length_zeros, htag, Size.tag, Size.padding,
      Size.sealedPadding]
    omega
  rw [unsealInPlaceOutcome, if_neg hlong, openOutcome,
    List.drop_left' (Bytes.length_zeros _), opened?, List.take_left' htag, List.drop_left' htag]
  by_cases h : tag.toList = (c.tag body).toList
  · rw [if_pos h]
    exact ⟨fun _ => ByteVec.ext h, fun _ => rfl⟩
  · rw [if_neg h]
    constructor
    · intro herr
      cases herr
    · intro heq
      exact absurd (congrArg ByteVec.toList heq) h

theorem sealOutcome_eq_iff {out box message : Bytes} (hout : box.length ≤ out.length)
    (hlength : box.length = Size.padding + message.length) :
    ⟨.ok (), Bytes.zeros Size.sealedPadding ++ box.drop Size.sealedPadding ++
        out.drop box.length⟩ = c.sealOutcome out (Bytes.zeros Size.padding ++ message) ↔
      c.boxed message = box.drop Size.sealedPadding := by
  have hpadded : (Bytes.zeros Size.padding ++ message).length = box.length := by
    rw [List.length_append, Bytes.length_zeros, hlength]
  have hmessage : (Bytes.zeros Size.padding ++ message).drop Size.padding = message :=
    List.drop_left' (Bytes.length_zeros _)
  rw [sealOutcome, hpadded, hmessage, if_neg (by omega), if_neg (Nat.not_lt.mpr hout)]
  simp [eq_comm]

end Cipher

end Strongbox
