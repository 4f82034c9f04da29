import Strongbox.Proofs.Provider.Boxes
import Strongbox.Proofs.Provider.Memory
import Strongbox.Proofs.Provider.Signatures
import Strongbox.Proofs.Sha512.Slices

/-! # Calls without guards

A provider may be called with no guard in front of it, on buffers of any length. The calls of the
provider that counts bytes are followed slice by slice: no slice is out of bounds, a refused call
has written nothing yet, and one that succeeds has written what it must and nothing else. -/

namespace Strongbox

open Sha512

variable {σ α β : Type}

/-! ## What a caller lends -/

/-- A call on a buffer that the caller lends. -/
def lend {n : Nat} (call : InPlace σ n α) (buf : ByteVec n) : Step σ (Answer α × ByteVec n) := do
  let reply ← call buf
  return (reply.result, reply.buffer)

/-- A call whose answer goes to a place of the caller's; a refusal leaves the place alone. -/
def into {m : Nat} (bytes : α → ByteVec m) (call : Step σ (Answer α)) (place : ByteVec m) :
    Step σ (Answer Unit × ByteVec m) := do
  match ← call with
  | .ok a => return (.ok (), bytes a)
  | .error e => return (.error e, place)

/-- A call on a buffer, whose answer goes to a place of the caller's. -/
def lendInto {m n : Nat} (bytes : α → ByteVec m) (call : InPlace σ n α)
    (lent : ByteVec n × ByteVec m) : Step σ (Answer Unit × (ByteVec n × ByteVec m)) := do
  let reply ← call lent.1
  match reply.result with
  | .ok a => return (.ok (), reply.buffer, bytes a)
  | .error e => return (.error e, reply.buffer, lent.2)

theorem lend_run {n : Nat} {call : InPlace σ n α} {buf : ByteVec n} {q q' : σ} {reply : Reply n α}
    (h : (call buf).run q = .ok (reply, q')) :
    (lend call buf).run q = .ok ((reply.result, reply.buffer), q') := by
  rw [lend, StateT.run_bind, h]
  rfl

theorem lendInto_run {m n : Nat} {bytes : α → ByteVec m} {call : InPlace σ n α}
    {lent : ByteVec n × ByteVec m} {q q' : σ} {reply : Reply n α}
    (h : (call lent.1).run q = .ok (reply, q')) :
    (lendInto bytes call lent).run q = .ok (match reply.result with
      | .ok a => (.ok (), reply.buffer, bytes a)
      | .error e => (.error e, reply.buffer, lent.2), q') := by
  rw [lendInto, StateT.run_bind, h, ok_bind]
  cases reply.result <;> rfl

/-- How a call without a guard comes out. -/
structure Direct (sliced : Except Violation (Answer α × β)) (call : Step σ (Answer α × β))
    (lent : β) (Done : α → β → Prop) : Prop where
  /-- All slices are in bounds, and the call comes out as they do. -/
  ends : ∃ r, sliced = .ok r ∧ ∀ q, call.run q = .ok (r, q)
  /-- A refused call has changed nothing. -/
  unchanged : ∀ {q q' : σ} {e after}, call.run q = .ok ((.error e, after), q') → after = lent
  /-- When the call succeeds, with what answer and with what change. -/
  done_iff : ∀ {q : σ} {a after}, call.run q = .ok ((.ok a, after), q) ↔ Done a after

namespace Direct

variable {sliced : Except Violation (Answer α × β)} {call : Step σ (Answer α × β)} {lent : β}
  {Done : α → β → Prop}

theorem of_refused (hsliced : sliced = .ok (.error {}, lent))
    (hcall : ∀ q, call.run q = .ok ((.error {}, lent), q)) (hDone : ∀ a after, ¬ Done a after) :
    Direct sliced call lent Done where
  ends := ⟨_, hsliced, hcall⟩
  unchanged {q q' e after} h := by
    rw [hcall] at h
    cases h
    rfl
  done_iff {q a after} := by
    rw [hcall]
    exact ⟨nofun, fun h => absurd h (hDone a after)⟩

theorem of_done {answer : α} {left : β} (hsliced : sliced = .ok (.ok answer, left))
    (hcall : ∀ q, call.run q = .ok ((.ok answer, left), q))
    (hDone : ∀ a after, Done a after ↔ a = answer ∧ after = left) :
    Direct sliced call lent Done where
  ends := ⟨_, hsliced, hcall⟩
  unchanged {q q' e after} h := by
    rw [hcall] at h
    cases h
  done_iff {q a after} := by
    rw [hcall, hDone]
    constructor
    · rintro ⟨⟩
      exact ⟨rfl, rfl⟩
    · rintro ⟨rfl, rfl⟩
      rfl

theorem of_check {check : Prop} [Decidable check] {answer : α} {left : β}
    (hsliced : sliced = if check then .ok (.ok answer, left) else .ok (.error {}, lent))
    (hcall : ∀ q, call.run q =
      if check then .ok ((.ok answer, left), q) else .ok ((.error {}, lent), q))
    (hDone : ∀ a after, Done a after ↔ check ∧ a = answer ∧ after = left) :
    Direct sliced call lent Done := by
  by_cases hcheck : check
  · simp only [hcheck, ite_true] at hsliced hcall
    exact of_done hsliced hcall fun a after => (hDone a after).trans (and_iff_right hcheck)
  · simp only [hcheck, ite_false] at hsliced hcall
    exact of_refused hsliced hcall fun a after h => hcheck ((hDone a after).mp h).1

end Direct

namespace Split

/-! ## The calls, slice by slice -/

namespace Sliced

variable (p : Primitives) {n : Nat}

/-- A refusal, with what was lent as it is by then. -/
def refuse (lent : β) : Except Violation (Answer α × β) := return (.error {}, lent)

def agree (peer : BoxPublicKey) (secret : BoxSecretKey) (place : ByteVec Size.symmetricKey) :
    Except Violation (Answer Unit × ByteVec Size.symmetricKey) := do
  match p.agreedKey? peer secret with
  | none => refuse place
  | some key =>
    let place ← place.copy 0 Size.symmetricKey key.toList
    return (.ok (), place)

def sealInPlace (nonce : Nonce) (key : SymmetricKey) (buf : ByteVec n) :
    Except Violation (Answer Unit × ByteVec n) := do
  if n < Size.padding then refuse buf
  else
    let message ← buf.toList.slice Size.padding n
    let body := masked p nonce key message
    let buf ← buf.copy Size.padding n body
    let buf ← buf.copy 0 Size.sealedPadding (Bytes.zeros Size.sealedPadding)
    let buf ← buf.copy Size.sealedPadding Size.padding (tagOf p nonce key body).toList
    return (.ok (), buf)

/-- The tag is checked before the body is unmasked. -/
def unsealInPlace (nonce : Nonce) (key : SymmetricKey) (buf : ByteVec n) :
    Except Violation (Answer Unit × ByteVec n) := do
  if n < Size.padding then refuse buf
  else
    let tag ← buf.toList.slice Size.sealedPadding Size.padding
    let body ← buf.toList.slice Size.padding n
    if (tagOf p nonce key body).toList = tag then
      let buf ← buf.copy Size.padding n (masked p nonce key body)
      let buf ← buf.copy 0 Size.padding (Bytes.zeros Size.padding)
      return (.ok (), buf)
    else refuse buf

def signInPlace (secret : SignSecretKey) (buf : ByteVec n) :
    Except Violation (Answer Unit × ByteVec n) := do
  if n < Size.signature then refuse buf
  else
    match loadSeed? p secret with
    | none => refuse buf
    | some seed =>
      let message ← buf.toList.slice Size.signature n
      let buf ← buf.copy 0 Size.signature (p.signature seed message).toList
      return (.ok (), buf)

def signDetached (message : Bytes) (secret : SignSecretKey) (place : ByteVec Size.signature) :
    Except Violation (Answer Unit × ByteVec Size.signature) := do
  match loadSeed? p secret with
  | none => refuse place
  | some seed =>
    let place ← place.copy 0 Size.signature (p.signature seed message).toList
    return (.ok (), place)

def openSigned (signed : Bytes) (pk : SignPublicKey) (buf : ByteVec n) :
    Except Violation (Answer Nat × ByteVec n) := do
  if signed.length < Size.signature ∨ n < signed.length then refuse buf
  else
    let front ← signed.slice 0 Size.signature
    let message ← signed.slice Size.signature signed.length
    let signature ← (ByteVec.zeros Size.signature).copy 0 Size.signature front
    if p.accepts pk message ⟨signature⟩ then
      let buf ← buf.copy 0 message.length message
      return (.ok message.length, buf)
    else refuse buf

def hashInit (buf : ByteVec n) : Except Violation (Answer Unit × ByteVec n) := do
  if n < Size.hashState then refuse buf
  else
    let buf ← Sliced.store buf .initial
    return (.ok (), buf)

def hashUpdate (chunk : Bytes) (buf : ByteVec n) :
    Except Violation (Answer Unit × ByteVec n) := do
  match ← Sliced.load buf with
  | none => refuse buf
  | some s =>
    if Nat.pow 2 128 ≤ s.count.toNat + chunk.length then throw .counterOverflow
    else
      let s ← Sliced.update p.compress s chunk
      let buf ← Sliced.store buf s
      return (.ok (), buf)

def hashFinal (lent : ByteVec n × ByteVec Size.digest) :
    Except Violation (Answer Unit × (ByteVec n × ByteVec Size.digest)) := do
  match ← Sliced.load lent.1 with
  | none => refuse lent
  | some s =>
    let s ← Sliced.finish p.compress s
    let place ← Sliced.copyWords (fun w => Bytes.ofNatBE 8 w.toNat) 0 s.chaining.words lent.2
    let buf ← Sliced.store lent.1 s
    return (.ok (), buf, place)

end Sliced

/-! ## What the calls leave -/

section

variable (p : Primitives) {n : Nat}

/-- The key on which the two keys agree. -/
def LeavesKey (peer : BoxPublicKey) (secret : BoxSecretKey) (_ : Unit)
    (after : ByteVec Size.symmetricKey) : Prop :=
  ∃ key, p.agreedKey? peer secret = some key ∧ after = key.toByteVec

/-- Sixteen zeros, the tag and the masked message, whatever the padding was. -/
def LeavesBox (nonce : Nonce) (key : SymmetricKey) (buf : ByteVec n) (_ : Unit)
    (after : ByteVec n) : Prop :=
  Size.padding ≤ n ∧ after.toList = Bytes.zeros Size.sealedPadding ++
    (p.cipher nonce key).boxed (buf.toList.drop Size.padding)

/-- Zeros and the message whose box stood behind the first sixteen bytes. -/
def LeavesMessage (nonce : Nonce) (key : SymmetricKey) (buf : ByteVec n) (_ : Unit)
    (after : ByteVec n) : Prop :=
  ∃ message, Size.padding ≤ n ∧
    (p.cipher nonce key).boxed message = buf.toList.drop Size.sealedPadding ∧
    after.toList = Bytes.zeros Size.padding ++ message

/-- The signature in front of the message, which stays. -/
def LeavesSigned (secret : SignSecretKey) (buf : ByteVec n) (_ : Unit) (after : ByteVec n) : Prop :=
  ∃ signature, Size.signature ≤ n ∧
    p.scheme.sign? secret (buf.toList.drop Size.signature) = some signature ∧
    after.toList = signature.toList ++ buf.toList.drop Size.signature

def LeavesSignature (message : Bytes) (secret : SignSecretKey) (_ : Unit)
    (after : ByteVec Size.signature) : Prop :=
  ∃ signature, p.scheme.sign? secret message = some signature ∧ after = signature.toByteVec

/-- The message over as many bytes as it has, and its length as the answer. -/
def LeavesOpened (signed : Bytes) (pk : SignPublicKey) (buf : ByteVec n) (length : Nat)
    (after : ByteVec n) : Prop :=
  Size.signature ≤ signed.length ∧ signed.length ≤ n ∧ p.scheme.opens pk signed = true ∧
    length = signed.length - Size.signature ∧
    after.toList = signed.drop Size.signature ++ buf.toList.drop length

/-- A state over the front of the buffer, and nothing else changed. -/
def LeavesState (s : Midstate) (buf after : ByteVec n) : Prop :=
  Size.hashState ≤ n ∧ after.toList = s.toBytes.toList ++ buf.toList.drop Size.hashState

def LeavesUpdated (chunk : Bytes) (buf : ByteVec n) (_ : Unit) (after : ByteVec n) : Prop :=
  ∃ s, load? buf = some s ∧ LeavesState (s.update p.compress chunk) buf after

/-- The finished state in the buffer and its digest in the place. -/
def LeavesDigest (buf : ByteVec n) (_ : Unit) (after : ByteVec n × ByteVec Size.digest) : Prop :=
  ∃ s, load? buf = some s ∧ LeavesState (s.finish p.compress) buf after.1 ∧
    after.2 = (s.finish p.compress).digest.toByteVec

end

/-! ## The calls one by one -/

section

variable (p : Primitives) {n : Nat}

theorem agree_direct (peer : BoxPublicKey) (secret : BoxSecretKey)
    (place : ByteVec Size.symmetricKey) :
    Direct (Sliced.agree p peer secret place)
      (into SymmetricKey.toByteVec (agree p peer secret) place) place
      (LeavesKey p peer secret) := by
  cases hkey : p.agreedKey? peer secret with
  | none =>
      apply Direct.of_refused
      · rw [Sliced.agree, hkey]
        rfl
      · intro q
        rw [into, agree, hkey]
        rfl
      · rintro a after ⟨key, h, -⟩
        rw [hkey] at h
        cases h
  | some key =>
      have hsliced : Sliced.agree p peer secret place = .ok (.ok (), key.toByteVec) := by
        rw [Sliced.agree, hkey]
        simp only [place.copy_whole]
        rfl
      refine Direct.of_done hsliced (fun q => ?_) ?_
      · rw [into, agree, hkey]
        rfl
      · rintro ⟨⟩ after
        simp [LeavesKey, hkey]

/-- The three copies of a sealing call fill the buffer. -/
theorem Sliced.sealInPlace_eq (nonce : Nonce) (key : SymmetricKey) {buf left : ByteVec n}
    (hlong : Size.padding ≤ n)
    (hleft : left.toList = Bytes.zeros Size.sealedPadding ++
      (p.cipher nonce key).boxed (buf.toList.drop Size.padding)) :
    Sliced.sealInPlace p nonce key buf = .ok (.ok (), left) := by
  let body := masked p nonce key (buf.toList.drop Size.padding)
  let tag := tagOf p nonce key body
  have hbody : Size.padding + body.length = n := by
    rw [length_masked]
    exact padding_add_body (Nat.not_lt.mpr hlong)
  have hzeros := Bytes.length_zeros Size.sealedPadding
  have htag : Size.sealedPadding + tag.toList.length = Size.padding :=
    congrArg (Size.sealedPadding + ·) tag.length_toList
  have hfront : (Bytes.zeros Size.sealedPadding ++ tag.toList).length = Size.padding := by
    rw [List.length_append, hzeros, htag]
  have hwritten : (buf.overwrite Size.padding body).overwrite 0
      (Bytes.zeros Size.sealedPadding ++ tag.toList) = left := by
    apply ByteVec.ext
    rw [buf.toList_overwrite_back_front hfront hbody, hleft]
    exact List.append_assoc _ _ _
  rw [Sliced.sealInPlace, if_neg (Nat.not_lt.mpr hlong),
    Bytes.slice_back hlong buf.length_toList.symm, ok_bind]
  change (buf.copy Size.padding n body >>= _) = _
  rw [buf.copy_of_bounds hbody (Nat.le_refl n), ok_bind,
    ByteVec.copy_front _ hzeros (Nat.le_trans (by decide) hlong), ok_bind,
    ByteVec.copy_behind _ (by rw [hzeros, Nat.zero_add]) htag hlong, ok_bind, hwritten]
  rfl

theorem sealInPlace_direct (nonce : Nonce) (key : SymmetricKey) (buf : ByteVec n) :
    Direct (Sliced.sealInPlace p nonce key buf) (lend (sealInPlace p nonce key) buf) buf
      (LeavesBox p nonce key buf) := by
  by_cases hshort : n < Size.padding
  · apply Direct.of_refused
    · rw [Sliced.sealInPlace, if_pos hshort]
      rfl
    · intro q
      rw [lend, sealInPlace, dif_pos hshort]
      rfl
    · rintro a after ⟨hlong, -⟩
      exact absurd hshort (Nat.not_lt.mpr hlong)
  · have hlong := Nat.le_of_not_lt hshort
    let body := masked p nonce key (buf.toList.drop Size.padding)
    let tag := tagOf p nonce key body
    let left : ByteVec n := ⟨Bytes.zeros Size.sealedPadding ++ tag.toList ++ body, by
      rw [List.length_append, List.length_append, Bytes.length_zeros, tag.length_toList,
        length_masked]
      exact padding_add_body hshort⟩
    have hleft : left.toList = Bytes.zeros Size.sealedPadding ++
        (p.cipher nonce key).boxed (buf.toList.drop Size.padding) := List.append_assoc _ _ _
    refine Direct.of_done (Sliced.sealInPlace_eq p nonce key hlong hleft) (fun q => ?_) ?_
    · rw [lend, sealInPlace, dif_neg hshort]
      rfl
    · rintro ⟨⟩ after
      rw [LeavesBox, ByteVec.ext_iff, hleft]
      exact ⟨fun h => ⟨rfl, h.2⟩, fun h => ⟨hlong, h.2⟩⟩

/-- A string is the box of at most one message, whose tag it must begin with. -/
theorem boxed_eq_iff (nonce : Nonce) (key : SymmetricKey) {sealed message : Bytes} :
    (p.cipher nonce key).boxed message = sealed ↔
      (tagOf p nonce key (sealed.drop Size.tag)).toList = sealed.take Size.tag ∧
        message = masked p nonce key (sealed.drop Size.tag) := by
  rw [← Cipher.opened?_eq_some_iff, Cipher.opened?, Option.ite_none_right_eq_some,
    Option.some.injEq]
  exact and_congr eq_comm eq_comm

/-- Both copies of an opening call come after the check of the tag. -/
theorem Sliced.unsealInPlace_eq (nonce : Nonce) (key : SymmetricKey) {buf left : ByteVec n}
    (hlong : Size.padding ≤ n)
    (hleft : left.toList = Bytes.zeros Size.padding ++
      masked p nonce key (buf.toList.drop Size.padding)) :
    Sliced.unsealInPlace p nonce key buf =
      if (tagOf p nonce key (buf.toList.drop Size.padding)).toList =
          (buf.toList.drop Size.sealedPadding).take Size.tag then .ok (.ok (), left)
      else .ok (.error {}, buf) := by
  let message := masked p nonce key (buf.toList.drop Size.padding)
  have hmessage : Size.padding + message.length = n := by
    rw [length_masked]
    exact padding_add_body (Nat.not_lt.mpr hlong)
  have hzeros := Bytes.length_zeros Size.padding
  have hroom : Size.padding ≤ buf.toList.length := by rwa [buf.length_toList]
  have hwritten : (buf.overwrite Size.padding message).overwrite 0 (Bytes.zeros Size.padding) =
      left :=
    ByteVec.ext ((buf.toList_overwrite_back_front hzeros hmessage).trans hleft.symm)
  rw [Sliced.unsealInPlace, if_neg (Nat.not_lt.mpr hlong),
    Bytes.slice_of_le (by decide) hroom, ok_bind,
    Bytes.slice_back hlong buf.length_toList.symm, ok_bind,
    buf.copy_of_bounds hmessage (Nat.le_refl n), ok_bind,
    ByteVec.copy_front _ hzeros hlong, ok_bind, hwritten]
  rfl

theorem unsealInPlace_direct (nonce : Nonce) (key : SymmetricKey) (buf : ByteVec n) :
    Direct (Sliced.unsealInPlace p nonce key buf) (lend (unsealInPlace p nonce key) buf) buf
      (LeavesMessage p nonce key buf) := by
  by_cases hshort : n < Size.padding
  · apply Direct.of_refused
    · rw [Sliced.unsealInPlace, if_pos hshort]
      rfl
    · intro q
      rw [lend, unsealInPlace, dif_pos hshort]
      rfl
    · rintro a after ⟨message, hlong, -⟩
      exact absurd hshort (Nat.not_lt.mpr hlong)
  · have hlong := Nat.le_of_not_lt hshort
    let message := masked p nonce key (buf.toList.drop Size.padding)
    let left : ByteVec n := ⟨Bytes.zeros Size.padding ++ message, by
      rw [List.length_append, Bytes.length_zeros, length_masked]
      exact padding_add_body hshort⟩
    have hleft : left.toList = Bytes.zeros Size.padding ++ message := rfl
    refine Direct.of_check (Sliced.unsealInPlace_eq p nonce key hlong hleft) ?_ ?_
    · intro q
      have hhead : (buf.toList.take Size.padding).drop Size.sealedPadding =
          (buf.toList.drop Size.sealedPadding).take Size.tag := List.drop_take
      rw [lend, unsealInPlace, dif_neg hshort]
      simp only [hhead]
      split <;> rfl
    · rintro ⟨⟩ after
      have hbody : (buf.toList.drop Size.sealedPadding).drop Size.tag =
          buf.toList.drop Size.padding := List.drop_drop
      rw [LeavesMessage, ByteVec.ext_iff]
      simp only [boxed_eq_iff, hbody, true_and]
      constructor
      · rintro ⟨_, -, ⟨htag, rfl⟩, hafter⟩
        exact ⟨htag, hafter⟩
      · rintro ⟨htag, hafter⟩
        exact ⟨message, hlong, ⟨htag, rfl⟩, hafter⟩

theorem sign?_eq (secret : SignSecretKey) (message : Bytes) :
    p.scheme.sign? secret message =
      (loadSeed? p secret).map fun seed => p.signature seed message := by
  simp only [Primitives.scheme, loadSeed?]
  split_ifs <;> rfl

theorem signInPlace_direct (secret : SignSecretKey) (buf : ByteVec n) :
    Direct (Sliced.signInPlace p secret buf) (lend (signInPlace p secret) buf) buf
      (LeavesSigned p secret buf) := by
  by_cases hshort : n < Size.signature
  · apply Direct.of_refused
    · rw [Sliced.signInPlace, if_pos hshort]
      rfl
    · intro q
      rw [lend, signInPlace, if_pos hshort]
      rfl
    · rintro a after ⟨signature, hlong, -⟩
      exact absurd hshort (Nat.not_lt.mpr hlong)
  · have hlong := Nat.le_of_not_lt hshort
    have hsign := sign?_eq p secret (buf.toList.drop Size.signature)
    cases hseed : loadSeed? p secret with
    | none =>
        apply Direct.of_refused
        · rw [Sliced.signInPlace, if_neg hshort, hseed]
          rfl
        · intro q
          rw [lend, signInPlace, if_neg hshort, hseed]
          rfl
        · rintro a after ⟨signature, -, h, -⟩
          rw [hsign, hseed] at h
          cases h
    | some seed =>
        let signature := p.signature seed (buf.toList.drop Size.signature)
        have hsliced : Sliced.signInPlace p secret buf =
            .ok (.ok (), buf.overwrite 0 signature.toList) := by
          rw [Sliced.signInPlace, if_neg hshort, hseed]
          simp only
          rw [Bytes.slice_back hlong buf.length_toList.symm, ok_bind,
            buf.copy_front signature.toByteVec.length_toList hlong]
          rfl
        have hleft := buf.toList_overwrite_front signature.toByteVec hlong
        refine Direct.of_done hsliced (fun q => ?_) ?_
        · rw [lend, signInPlace, if_neg hshort, hseed]
          rfl
        · rintro ⟨⟩ after
          rw [ByteVec.ext_iff, hleft]
          rw [hseed, Option.map_some] at hsign
          constructor
          · rintro ⟨_, -, h, hafter⟩
            rw [hsign] at h
            cases h
            exact ⟨rfl, hafter⟩
          · rintro ⟨-, hafter⟩
            exact ⟨signature, hlong, hsign, hafter⟩

theorem signDetached_direct (message : Bytes) (secret : SignSecretKey)
    (place : ByteVec Size.signature) :
    Direct (Sliced.signDetached p message secret place)
      (into Signature.toByteVec (signDetached p message secret) place) place
      (LeavesSignature p message secret) := by
  have hsign := sign?_eq p secret message
  cases hseed : loadSeed? p secret with
  | none =>
      apply Direct.of_refused
      · rw [Sliced.signDetached, hseed]
        rfl
      · intro q
        rw [into, signDetached, hseed]
        rfl
      · rintro a after ⟨signature, h, -⟩
        rw [hsign, hseed] at h
        cases h
  | some seed =>
      have hsliced : Sliced.signDetached p message secret place =
          .ok (.ok (), (p.signature seed message).toByteVec) := by
        rw [Sliced.signDetached, hseed]
        simp only [place.copy_whole]
        rfl
      refine Direct.of_done hsliced (fun q => ?_) ?_
      · rw [into, signDetached, hseed]
        rfl
      · rintro ⟨⟩ after
        simp [LeavesSignature, hsign, hseed]

/-- The one copy of an opening call fits in the buffer, and it comes after the check. -/
theorem Sliced.openSigned_eq {signed : Bytes} (pk : SignPublicKey) (buf : ByteVec n)
    (hlong : Size.signature ≤ signed.length) (hroom : signed.length ≤ n) :
    Sliced.openSigned p signed pk buf =
      if p.scheme.opens pk signed then
        .ok (.ok (signed.drop Size.signature).length, buf.overwrite 0 (signed.drop Size.signature))
      else .ok (.error {}, buf) := by
  let message := signed.drop Size.signature
  have hmessage : message.length ≤ n := by
    rw [List.length_drop]
    omega
  have hbounds : ¬ (signed.length < Size.signature ∨ n < signed.length) := by omega
  have hfront : signed.take Size.signature = (ByteVec.ofFront Size.signature signed).toList :=
    (ByteVec.toList_ofFront hlong).symm
  rw [Sliced.openSigned, if_neg hbounds, Bytes.slice_front hlong, ok_bind,
    Bytes.slice_back hlong rfl, ok_bind, hfront, ByteVec.copy_whole, ok_bind]
  change (if p.scheme.opens pk signed then buf.copy 0 message.length message >>= _ else _) = _
  rw [buf.copy_front rfl hmessage]
  rfl

theorem openSigned_lent_run {signed : Bytes} (pk : SignPublicKey) (buf : ByteVec n)
    (hlong : Size.signature ≤ signed.length) (hroom : signed.length ≤ n) (q : Entropy) :
    (lend (openSigned p signed pk) buf).run q =
      if p.scheme.opens pk signed then
        .ok ((.ok (signed.drop Size.signature).length,
          buf.overwrite 0 (signed.drop Size.signature)), q)
      else .ok ((.error {}, buf), q) := by
  have hbounds : ¬ (signed.length < Size.signature ∨ n < signed.length) := by omega
  rw [lend, openSigned]
  simp only [hbounds, ite_false, verifyDetached, pure_bind]
  change StateT.run (_ >>= _) q = _
  by_cases hopens : p.scheme.opens pk signed
  · have haccepts : p.accepts pk (signed.drop Size.signature)
        ⟨.ofFront Size.signature signed⟩ = true := hopens
    simp only [haccepts, hopens, ite_true]
    rfl
  · have haccepts : ¬ p.accepts pk (signed.drop Size.signature)
        ⟨.ofFront Size.signature signed⟩ = true := hopens
    simp only [haccepts, hopens]
    rfl

theorem openSigned_direct (signed : Bytes) (pk : SignPublicKey) (buf : ByteVec n) :
    Direct (Sliced.openSigned p signed pk buf) (lend (openSigned p signed pk) buf) buf
      (LeavesOpened p signed pk buf) := by
  by_cases hbounds : signed.length < Size.signature ∨ n < signed.length
  · apply Direct.of_refused
    · rw [Sliced.openSigned, if_pos hbounds]
      rfl
    · intro q
      rw [lend, openSigned]
      simp only [hbounds, ite_true]
      rfl
    · rintro a after ⟨hlong, hroom, -⟩
      omega
  · have hlong : Size.signature ≤ signed.length := by omega
    have hroom : signed.length ≤ n := by omega
    let message := signed.drop Size.signature
    have hmessage : message.length = signed.length - Size.signature := List.length_drop
    have hfits : message.length ≤ n := by omega
    refine Direct.of_check (Sliced.openSigned_eq p pk buf hlong hroom)
      (openSigned_lent_run p pk buf hlong hroom) fun length after => ?_
    rw [LeavesOpened, ByteVec.ext_iff, buf.toList_overwrite_zero hfits]
    constructor
    · rintro ⟨-, -, hopens, rfl, hafter⟩
      exact ⟨hopens, hmessage.symm, by rw [hafter, hmessage]⟩
    · rintro ⟨hopens, rfl, hafter⟩
      exact ⟨hlong, hroom, hopens, hmessage, hafter⟩

theorem load_eq_load? (buf : ByteVec n) : Sliced.load buf = .ok (load? buf) := by
  by_cases hlong : Size.hashState ≤ n
  · rw [Sliced.load_eq buf hlong, load?_of_le buf hlong]
  · rw [Sliced.load_of_short buf (Nat.lt_of_not_le hlong), load?, dif_neg hlong]

theorem le_of_load? {buf : ByteVec n} {s : Midstate} (h : load? buf = some s) :
    Size.hashState ≤ n := by
  by_contra hshort
  rw [load?, dif_neg hshort] at h
  cases h

theorem leavesState_iff {s : Midstate} {buf after : ByteVec n} (h : Size.hashState ≤ n) :
    LeavesState s buf after ↔ after = store buf s := by
  rw [LeavesState, ByteVec.ext_iff, toList_store buf s h]
  exact and_iff_right h

theorem hashInit_direct (buf : ByteVec n) :
    Direct (Sliced.hashInit buf) (lend hashInit buf) buf
      fun _ => LeavesState .initial buf := by
  by_cases hshort : n < Size.hashState
  · apply Direct.of_refused
    · rw [Sliced.hashInit, if_pos hshort]
      rfl
    · intro q
      rw [lend, hashInit, if_pos hshort]
      rfl
    · rintro a after ⟨hlong, -⟩
      exact absurd hshort (Nat.not_lt.mpr hlong)
  · have hlong := Nat.le_of_not_lt hshort
    have hsliced : Sliced.hashInit buf = .ok (.ok (), store buf .initial) := by
      rw [Sliced.hashInit, if_neg hshort, Sliced.store_eq buf .initial hlong]
      rfl
    refine Direct.of_done hsliced (fun q => by rw [lend_run (hashInit_run buf q hlong)]) ?_
    rintro ⟨⟩ after
    rw [leavesState_iff hlong]
    exact (and_iff_right rfl).symm

theorem hashUpdate_direct (chunk : Bytes) (buf : ByteVec n)
    (hcount : ∀ s, load? buf = some s → s.count.toNat + chunk.length < 2 ^ 128) :
    Direct (Sliced.hashUpdate p chunk buf) (lend (hashUpdate p chunk) buf) buf
      (LeavesUpdated p chunk buf) := by
  cases hload : load? buf with
  | none =>
      apply Direct.of_refused
      · rw [Sliced.hashUpdate, load_eq_load?, hload]
        rfl
      · intro q
        rw [lend, hashUpdate, hload]
        rfl
      · rintro a after ⟨s, h, -⟩
        rw [hload] at h
        cases h
  | some s =>
      have hlong := le_of_load? hload
      have hbelow : ¬ Nat.pow 2 128 ≤ s.count.toNat + chunk.length :=
        Nat.not_le.mpr (hcount s hload)
      have hsliced : Sliced.hashUpdate p chunk buf =
          .ok (.ok (), store buf (s.update p.compress chunk)) := by
        rw [Sliced.hashUpdate, load_eq_load?, hload, ok_bind]
        simp only [hbelow, ite_false]
        rw [Sliced.update_eq, ok_bind, Sliced.store_eq buf _ hlong]
        rfl
      refine Direct.of_done hsliced
        (fun q => lend_run (hashUpdate_run p chunk q hload (hcount s hload))) ?_
      rintro ⟨⟩ after
      simp [LeavesUpdated, hload, leavesState_iff hlong]

theorem hashFinal_direct (buf : ByteVec n) (place : ByteVec Size.digest) :
    Direct (Sliced.hashFinal p (buf, place))
      (lendInto Digest.toByteVec (hashFinal p) (buf, place)) (buf, place)
      (LeavesDigest p buf) := by
  cases hload : load? buf with
  | none =>
      apply Direct.of_refused
      · rw [Sliced.hashFinal, load_eq_load?, hload]
        rfl
      · intro q
        rw [lendInto, hashFinal, hload]
        rfl
      · rintro a after ⟨s, h, -⟩
        rw [hload] at h
        cases h
  | some s =>
      have hlong := le_of_load? hload
      let finished := s.finish p.compress
      have hsliced : Sliced.hashFinal p (buf, place) =
          .ok (.ok (), store buf finished, finished.digest.toByteVec) := by
        rw [Sliced.hashFinal, load_eq_load?, hload, ok_bind]
        simp only
        rw [Sliced.finish_eq, ok_bind, Sliced.copyWords_digest, ok_bind,
          Sliced.store_eq buf _ hlong]
        rfl
      refine Direct.of_done hsliced (fun q => lendInto_run (hashFinal_run p q hload)) ?_
      rintro ⟨⟩ ⟨after, left⟩
      simp [LeavesDigest, hload, leavesState_iff hlong, finished]

end

/-! ## All calls -/

/-- The nine calls that write to what a caller lends, with arguments of any length and content.
Only the count of the bytes hashed so far is taken to stay in its range. -/
structure DirectCalls (p : Primitives) : Prop where
  agree : ∀ peer secret place, Direct (Sliced.agree p peer secret place)
    (into SymmetricKey.toByteVec ((provider p).agree peer secret) place) place
    (LeavesKey p peer secret)
  sealInPlace : ∀ {n} nonce key (buf : ByteVec n), Direct (Sliced.sealInPlace p nonce key buf)
    (lend ((provider p).sealInPlace nonce key) buf) buf (LeavesBox p nonce key buf)
  unsealInPlace : ∀ {n} nonce key (buf : ByteVec n), Direct (Sliced.unsealInPlace p nonce key buf)
    (lend ((provider p).unsealInPlace nonce key) buf) buf (LeavesMessage p nonce key buf)
  signInPlace : ∀ {n} secret (buf : ByteVec n), Direct (Sliced.signInPlace p secret buf)
    (lend ((provider p).signInPlace secret) buf) buf (LeavesSigned p secret buf)
  signDetached : ∀ message secret place, Direct (Sliced.signDetached p message secret place)
    (into Signature.toByteVec ((provider p).signDetached message secret) place) place
    (LeavesSignature p message secret)
  openSigned : ∀ {n} signed pk (buf : ByteVec n), Direct (Sliced.openSigned p signed pk buf)
    (lend ((provider p).openSigned signed pk) buf) buf (LeavesOpened p signed pk buf)
  hashInit : ∀ {n} (buf : ByteVec n), Direct (Sliced.hashInit buf)
    (lend (provider p).hashInit buf) buf fun _ => LeavesState .initial buf
  hashUpdate : ∀ {n} chunk (buf : ByteVec n),
    (∀ s, load? buf = some s → s.count.toNat + chunk.length < 2 ^ 128) →
    Direct (Sliced.hashUpdate p chunk buf)
      (lend ((provider p).hashUpdate chunk) buf) buf (LeavesUpdated p chunk buf)
  hashFinal : ∀ {n} (buf : ByteVec n) place, Direct (Sliced.hashFinal p (buf, place))
    (lendInto Digest.toByteVec (provider p).hashFinal (buf, place)) (buf, place)
    (LeavesDigest p buf)

/-- Without a guard, a call writes nothing before its last check and nothing out of bounds. -/
theorem calls_directly (p : Primitives) : DirectCalls p where
  agree := agree_direct p
  sealInPlace := sealInPlace_direct p
  unsealInPlace := unsealInPlace_direct p
  signInPlace := signInPlace_direct p
  signDetached := signDetached_direct p
  openSigned := openSigned_direct p
  hashInit := hashInit_direct
  hashUpdate := hashUpdate_direct p
  hashFinal := hashFinal_direct p

end Split

end Strongbox
