import Strongbox.Proofs.Bytes
import Strongbox.Proofs.Guard.Boxes
import Strongbox.Proofs.Provider.StandIn
import Strongbox.Provider.Joined
import Strongbox.Provider.Split

/-! # Boxes with every provider

The stand-in has a weak cipher of its own. The two real providers reach one and the same
cipher, masking the padded buffer as a whole or its body alone. -/

namespace Strongbox

open Guard

/-! ## The parts of a buffer

A box stands behind sixteen bytes that mean nothing. -/

theorem drop_sealedPadding {front box : Bytes} (h : front.length = Size.sealedPadding) :
    (front ++ box).drop Size.sealedPadding = box := List.drop_left' h

theorem drop_padding {front box : Bytes} (h : front.length = Size.sealedPadding) :
    (front ++ box).drop Size.padding = box.drop Size.tag := by
  have hboth : Size.padding = Size.sealedPadding + Size.tag := rfl
  rw [hboth, ← List.drop_drop, List.drop_left' h]

theorem padding_le {front box : Bytes} (h : front.length = Size.sealedPadding)
    (hbox : Size.tag ≤ box.length) : Size.padding ≤ (front ++ box).length := by
  rw [List.length_append, h]
  exact Nat.add_le_add_left hbox Size.sealedPadding


namespace StandIn

theorem masked_masked (key : SymmetricKey) (nonce : Nonce) (body : Bytes) :
    masked key nonce (masked key nonce body) = body := by
  apply List.ext_getElem
  · simp
  · intro i h _
    simp only [masked, List.getElem_map, List.getElem_zipIdx, Nat.zero_add]
    rw [UInt8.xor_assoc, UInt8.xor_self, UInt8.xor_zero]

def cipher (nonce : Nonce) (key : SymmetricKey) : Cipher where
  mask := masked key nonce
  tag body := ⟨weakTag key.toList body, length_weakTag _ _⟩
  length_mask := length_masked key nonce
  mask_mask := masked_masked key nonce

theorem sealInPlace_run (nonce : Nonce) (key : SymmetricKey) (message : Bytes) {q : State}
    (hready : q.failing = false) :
    (InPlace.onBytes (sealInPlace nonce key) (Bytes.zeros Size.padding ++ message)).run q =
      .ok ((.ok (), Bytes.zeros Size.sealedPadding ++ (cipher nonce key).boxed message),
        q.counted) := by
  have hpadding := Bytes.length_zeros Size.padding
  have hlong : Size.padding ≤ (Bytes.zeros Size.padding ++ message).length := by
    rw [List.length_append, hpadding]
    exact Nat.le_add_right _ _
  have hlength : (Bytes.zeros Size.sealedPadding ++ weakTag key.toList (masked key nonce message)
      ++ masked key nonce message).length = (Bytes.zeros Size.padding ++ message).length := by
    simp only [List.length_append, Bytes.length_zeros, length_weakTag, length_masked]
  have hclean : (Bytes.zeros Size.padding).any (· != 0) = false := by decide
  obtain ⟨buf', hwrite, hbytes⟩ := @writeFront_of_length _
    (.ofList (Bytes.zeros Size.padding ++ message)) _ hlength
  rw [InPlace.run_onBytes, sealInPlace, working_run _ _ hready, parts_of_le hlong]
  simp only [pure_bind, ByteVec.toList_ofList, List.take_left' hpadding,
    List.drop_left' hpadding, hclean, Bool.false_eq_true, ite_false, hwrite, StateT.run_pure,
    pure_eq_ok, Except.map_ok, hbytes]
  rw [List.append_assoc]
  rfl

theorem unsealInPlace_run (nonce : Nonce) (key : SymmetricKey) {front box : Bytes} {q : State}
    (hready : q.failing = false) (hfront : front.length = Size.sealedPadding)
    (hbox : Size.tag ≤ box.length) :
    (InPlace.onBytes (unsealInPlace nonce key) (front ++ box)).run q =
      .ok ((cipher nonce key).answer box (front ++ box), q.counted) := by
  have hlong := padding_le hfront hbox
  have htag : ((front ++ box).take Size.padding).drop Size.sealedPadding =
      box.take Size.tag := by
    rw [List.drop_take, drop_sealedPadding hfront]
  have hlength : (Bytes.zeros Size.padding ++ masked key nonce (box.drop Size.tag)).length =
      (front ++ box).length := by
    rw [← drop_padding hfront, List.length_append, Bytes.length_zeros, length_masked,
      List.length_drop, Nat.add_sub_cancel' hlong]
  obtain ⟨buf', hwrite, hbytes⟩ := @writeFront_of_length _ (.ofList (front ++ box)) _ hlength
  rw [InPlace.run_onBytes, unsealInPlace, working_run _ _ hready, parts_of_le hlong]
  simp only [pure_bind, ByteVec.toList_ofList, htag, drop_padding hfront]
  by_cases h : box.take Size.tag = weakTag key.toList (box.drop Size.tag)
  · have hopened : (cipher nonce key).opened? box = some (masked key nonce (box.drop Size.tag)) :=
      if_pos h
    simp only [h, bne_self_eq_false, Bool.false_eq_true, ite_false, hwrite, pure_bind,
      StateT.run_pure, pure_eq_ok, Except.map_ok, hbytes, Cipher.answer, hopened]
  · have hrejected : (cipher nonce key).opened? box = none := if_neg h
    simp only [bne_iff_ne.mpr (Ne.symm h), ite_true, StateT.run_pure, pure_eq_ok, Except.map_ok,
      ByteVec.toList_ofList, Cipher.answer, hrejected]

theorem sealsBy : SealsBy provider (fun q => q.failing = false) cipher where
  seals nonce key message hready := ⟨_, sealInPlace_run nonce key message hready⟩
  unseals nonce key _ _ hready hfront hbox :=
    ⟨_, _, unsealInPlace_run nonce key hready hfront hbox⟩

end StandIn

/-! ## The keystream cipher -/

namespace Primitives

variable (p : Primitives)

/-- A shorter keystream is the front of a longer one. -/
theorem take_keystream (key : SymmetricKey) (nonce : Nonce) {m n : Nat} (h : m ≤ n) :
    (p.keystream key nonce n).take m = p.keystream key nonce m := by
  let blocks (k : Nat) : Bytes :=
    (List.range k).flatMap fun i => (p.keystreamBlock key nonce i).toList
  have hblocks : (n + 63) / 64 = (m + 63) / 64 + ((n + 63) / 64 - (m + 63) / 64) := by omega
  have hfront : m ≤ (blocks ((m + 63) / 64)).length := by
    rw [length_flatMap_blocks]
    omega
  change ((blocks ((n + 63) / 64)).take n).take m = (blocks ((m + 63) / 64)).take m
  rw [List.take_take, Nat.min_eq_left h, hblocks]
  simp only [blocks, List.range_add, List.flatMap_append]
  rw [List.take_append_of_le_length hfront]

/-- The cipher of the real providers: the keystream behind its first 32 bytes masks the
body, and those 32 bytes are the key of the tag. -/
def cipher (nonce : Nonce) (key : SymmetricKey) : Cipher where
  mask := Split.masked p nonce key
  tag := Split.tagOf p nonce key
  length_mask := Split.length_masked p nonce key
  mask_mask b := by
    rw [Split.masked, Split.length_masked, Split.masked]
    apply Bytes.xor_xor_cancel_right
    simp

end Primitives

namespace Split

variable (p : Primitives)

theorem sealInPlace_run (nonce : Nonce) (key : SymmetricKey) (message : Bytes) (q : Entropy) :
    (InPlace.onBytes (sealInPlace p nonce key) (Bytes.zeros Size.padding ++ message)).run q =
      .ok ((.ok (), Bytes.zeros Size.sealedPadding ++ (p.cipher nonce key).boxed message), q) := by
  have hlong : ¬ (Bytes.zeros Size.padding ++ message).length < Size.padding := by
    rw [List.length_append, Bytes.length_zeros]
    omega
  have hmessage : (Bytes.zeros Size.padding ++ message).drop Size.padding = message :=
    List.drop_left' (Bytes.length_zeros _)
  rw [InPlace.run_onBytes]
  simp only [sealInPlace, hlong, dite_false, StateT.run_pure, pure_eq_ok, Except.map_ok,
    ByteVec.toList_ofList, hmessage, List.append_assoc]
  rfl

theorem unsealInPlace_run (nonce : Nonce) (key : SymmetricKey) {front box : Bytes} (q : Entropy)
    (hfront : front.length = Size.sealedPadding) (hbox : Size.tag ≤ box.length) :
    (InPlace.onBytes (unsealInPlace p nonce key) (front ++ box)).run q =
      .ok ((p.cipher nonce key).answer box (front ++ box), q) := by
  have hlong : ¬ (front ++ box).length < Size.padding := Nat.not_lt.mpr (padding_le hfront hbox)
  have htag : ((front ++ box).take Size.padding).drop Size.sealedPadding =
      box.take Size.tag := by
    rw [List.drop_take, drop_sealedPadding hfront]
  rw [InPlace.run_onBytes]
  simp only [unsealInPlace, hlong, dite_false, ByteVec.toList_ofList, htag, drop_padding hfront]
  by_cases h : (tagOf p nonce key (box.drop Size.tag)).toList = box.take Size.tag
  · have hopened : (p.cipher nonce key).opened? box =
        some (masked p nonce key (box.drop Size.tag)) := if_pos h.symm
    simp only [h, ite_true, StateT.run_pure, pure_eq_ok, Except.map_ok, Cipher.answer, hopened]
  · have hrejected : (p.cipher nonce key).opened? box = none := if_neg (Ne.symm h)
    simp only [h, ite_false, reject, StateT.run_pure, pure_eq_ok, Except.map_ok,
      ByteVec.toList_ofList, Cipher.answer, hrejected]

theorem sealsBy : SealsBy (provider p) (fun _ => True) p.cipher where
  seals nonce key message _ := ⟨_, sealInPlace_run p nonce key message _⟩
  unseals nonce key _ _ _ hfront hbox := ⟨_, _, unsealInPlace_run p nonce key _ hfront hbox⟩

end Split

namespace Joined

variable (p : Primitives)

/-- Behind the padding, the mask of the whole buffer is the mask of the body alone. -/
theorem drop_masked (nonce : Nonce) (key : SymmetricKey) {buf : Bytes}
    (h : Size.padding ≤ buf.length) :
    (masked p nonce key buf).drop Size.padding =
      Split.masked p nonce key (buf.drop Size.padding) := by
  rw [masked, Split.masked, Bytes.drop_xor, List.length_drop, Nat.add_sub_cancel' h]

/-- Masked zeros are the keystream itself. -/
theorem front_masked_zeros (nonce : Nonce) (key : SymmetricKey) (message : Bytes) :
    ByteVec.ofFront 32 (masked p nonce key (Bytes.zeros Size.padding ++ message)) =
      ByteVec.ofFront 32 (p.keystream key nonce 32) := by
  have hzeros := Bytes.length_zeros Size.padding
  have hstream := p.length_keystream key nonce 32
  have hlong : 32 ≤ (Bytes.zeros Size.padding ++ message).length := by
    rw [List.length_append, hzeros]
    exact Nat.le_add_right _ _
  apply ByteVec.ext
  rw [ByteVec.toList_ofFront (by rwa [length_masked]),
    ByteVec.toList_ofFront (Nat.le_of_eq hstream.symm),
    List.take_of_length_le (Nat.le_of_eq hstream), masked, Bytes.take_xor,
    List.take_left' hzeros, p.take_keystream key nonce hlong]
  have hcancel := Bytes.zeros_xor (p.keystream key nonce 32)
  rwa [hstream] at hcancel

theorem sealInPlace_run (nonce : Nonce) (key : SymmetricKey) (message : Bytes) (q : Entropy) :
    (InPlace.onBytes (sealInPlace p nonce key) (Bytes.zeros Size.padding ++ message)).run q =
      .ok ((.ok (), Bytes.zeros Size.sealedPadding ++ (p.cipher nonce key).boxed message), q) := by
  have hlong : Size.padding ≤ (Bytes.zeros Size.padding ++ message).length := by
    rw [List.length_append, Bytes.length_zeros]
    exact Nat.le_add_right _ _
  have hmessage : (Bytes.zeros Size.padding ++ message).drop Size.padding = message :=
    List.drop_left' (Bytes.length_zeros _)
  have hbody := drop_masked p nonce key hlong
  rw [hmessage] at hbody
  rw [InPlace.run_onBytes]
  simp only [sealInPlace, Nat.not_lt.mpr hlong, dite_false, StateT.run_pure, pure_eq_ok,
    Except.map_ok, ByteVec.toList_ofList, hbody, tagUnder, front_masked_zeros, List.append_assoc]
  rfl

theorem unsealInPlace_run (nonce : Nonce) (key : SymmetricKey) {front box : Bytes} (q : Entropy)
    (hfront : front.length = Size.sealedPadding) (hbox : Size.tag ≤ box.length) :
    (InPlace.onBytes (unsealInPlace p nonce key) (front ++ box)).run q =
      .ok ((p.cipher nonce key).answer box (front ++ box), q) := by
  have hlong := padding_le hfront hbox
  rw [InPlace.run_onBytes]
  simp only [unsealInPlace, Nat.not_lt.mpr hlong, dite_false, ByteVec.toList_ofList,
    drop_sealedPadding hfront, drop_padding hfront, drop_masked p nonce key hlong]
  by_cases h : (tagUnder p (p.keystream key nonce 32) (box.drop Size.tag)).toList =
      box.take Size.tag
  · have hopened : (p.cipher nonce key).opened? box =
        some (Split.masked p nonce key (box.drop Size.tag)) := if_pos h.symm
    simp only [h, ne_eq, not_true_eq_false, ite_false, StateT.run_pure, pure_eq_ok,
      Except.map_ok, Cipher.answer, hopened]
  · have hrejected : (p.cipher nonce key).opened? box = none := if_neg (Ne.symm h)
    simp only [h, ne_eq, not_false_eq_true, ite_true, reject, StateT.run_pure, pure_eq_ok,
      Except.map_ok, ByteVec.toList_ofList, Cipher.answer, hrejected]

theorem sealsBy : SealsBy (provider p) (fun _ => True) p.cipher where
  seals nonce key message _ := ⟨_, sealInPlace_run p nonce key message _⟩
  unseals nonce key _ _ _ hfront hbox := ⟨_, _, unsealInPlace_run p nonce key _ hfront hbox⟩

end Joined

/-! ## Opening and sealing -/

/-- With every provider, opening inverts sealing in both directions, whatever sessions
the two happen in. -/
theorem opening_inverts_sealing (nonce : Nonce) (key : SymmetricKey) :
    (∀ s t : Session StandIn.State, s.provider.failing = false → t.provider.failing = false →
      OpensWhatItSeals StandIn.provider s t nonce key) ∧
    (∀ (p : Primitives) (s t : Session Entropy),
      OpensWhatItSeals (Split.provider p) s t nonce key) ∧
    (∀ (p : Primitives) (s t : Session Entropy),
      OpensWhatItSeals (Joined.provider p) s t nonce key) := by
  refine ⟨?_, ?_, ?_⟩
  · intro s t hs ht
    exact StandIn.sealsBy.opensWhatItSeals hs ht nonce key
  · intro p s t
    exact (Split.sealsBy p).opensWhatItSeals trivial trivial nonce key
  · intro p s t
    exact (Joined.sealsBy p).opensWhatItSeals trivial trivial nonce key

/-- Two sessions of the stand-in, one of them a call ahead. -/
theorem stand_in_opens_what_it_seals :
    OpensWhatItSeals StandIn.provider ⟨{ calls := 1 }, []⟩ ⟨{}, []⟩ ⟨.zeros 24⟩ ⟨.zeros 32⟩ :=
  (opening_inverts_sealing ⟨.zeros 24⟩ ⟨.zeros 32⟩).1 _ _ rfl rfl

end Strongbox
