import Strongbox.Proofs.Bytes
import Strongbox.Proofs.Runs
import Strongbox.Provider.StandIn

/-! # Calls of the stand-in

What each call does while no failure is switched on, and what every call does on entry. -/

namespace Strongbox.StandIn

/-- The state behind the count of a call. -/
def State.counted (q : State) : State := { q with calls := q.calls + 1 }

@[simp] theorem failing_counted (q : State) : q.counted.failing = q.failing := rfl

theorem entering_run {α : Type} (rejected : α) (act : Step State α) (q : State) :
    (entering rejected act).run q =
      if q.failing then .ok (rejected, q.counted) else act.run q.counted := by
  obtain ⟨calls, failing, misreporting⟩ := q
  cases failing <;> rfl

theorem asking_run {α : Type} (act : Step State (Answer α)) {q : State}
    (h : q.failing = false) : (asking act).run q = act.run q.counted := by
  rw [asking, entering_run, h]
  rfl

theorem working_run {n : Nat} {α : Type} (act : InPlace State n α) (buf : ByteVec n) {q : State}
    (h : q.failing = false) : (working act buf).run q = (act buf).run q.counted := by
  rw [working, entering_run, h]
  rfl

theorem working_run_of_failing {n : Nat} {α : Type} (act : InPlace State n α) (buf : ByteVec n)
    {q : State} (h : q.failing = true) :
    (working act buf).run q = .ok (⟨.error {}, buf⟩, q.counted) := by
  rw [working, entering_run, if_pos h]

/-- Every call is counted. A failing stand-in answers with a rejection, and one that is not
comes out as the rest of the call does. -/
theorem outcome_entering {α : Type} {rejected : α} {act : Step State α} {q : State}
    {Q : α × State → Prop} {F : Violation → Prop} (hrejected : Q (rejected, q.counted))
    (hact : Outcome Q F (act.run q.counted)) : Outcome Q F ((entering rejected act).run q) := by
  rw [entering_run]
  split
  · exact hrejected
  · exact hact

theorem writeFront_of_le {n : Nat} {buf : ByteVec n} {front : Bytes} (h : front.length ≤ n) :
    ∃ buf', writeFront buf front = pure buf' ∧
      buf'.toList = front ++ buf.toList.drop front.length := by
  refine ⟨⟨front ++ buf.toList.drop front.length, ?_⟩, ?_, rfl⟩
  · rw [List.length_append, List.length_drop, ByteVec.length_toList]
    omega
  · simp only [writeFront, h, dite_true]

/-- A front as long as the buffer replaces all of it. -/
theorem writeFront_of_length {n : Nat} {buf : ByteVec n} {front : Bytes}
    (h : front.length = n) : ∃ buf', writeFront buf front = pure buf' ∧ buf'.toList = front := by
  obtain ⟨buf', hwrite, hbytes⟩ := @writeFront_of_le n buf front (Nat.le_of_eq h)
  refine ⟨buf', hwrite, ?_⟩
  rw [hbytes, h, List.drop_of_length_le (Nat.le_of_eq buf.length_toList), List.append_nil]

theorem parts_of_le {n m : Nat} {buf : ByteVec n} (h : m ≤ n) :
    parts m buf = pure (buf.toList.take m, buf.toList.drop m) := by
  simp only [parts, h, ite_true]

/-! ## Hashing -/

/-- The digest of a whole message. -/
def weakDigest (message : Bytes) : Digest :=
  spread (message.foldl foldByte foldStart) (UInt64.ofNat message.length)

/-- The state that a stream keeps for a message. -/
def weakState (message : Bytes) : Bytes :=
  stateBytes (message.foldl foldByte foldStart) (UInt64.ofNat message.length)

@[simp] theorem length_weakState (message : Bytes) : (weakState message).length = 16 :=
  length_stateBytes _ _

theorem wordAt_stateBytes (h len : UInt64) :
    wordAt 0 (stateBytes h len) = h ∧ wordAt 8 (stateBytes h len) = len := by
  have hfront := Bytes.length_ofNatLE 8 h.toNat
  constructor
  · rw [wordAt, stateBytes, List.drop_zero, List.take_left' hfront, Bytes.word_ofNatLE]
  · rw [wordAt, stateBytes, List.drop_left' hfront,
      List.take_of_length_le (Nat.le_of_eq (Bytes.length_ofNatLE 8 len.toNat)), Bytes.word_ofNatLE]

theorem wordAt_weakState (message : Bytes) :
    wordAt 0 (weakState message) = message.foldl foldByte foldStart ∧
      wordAt 8 (weakState message) = UInt64.ofNat message.length :=
  wordAt_stateBytes _ _

theorem digest_run (message : Bytes) {q : State} (h : q.failing = false) :
    (digest message).run q = .ok (.ok (weakDigest message), q.counted) := by
  rw [digest, asking_run _ h]
  rfl

theorem hashInit_run {n : Nat} (buf : ByteVec n) {q : State} (h : q.failing = false)
    (hlong : 16 ≤ n) :
    ∃ buf', (hashInit buf).run q = .ok (⟨.ok (), buf'⟩, q.counted) ∧
      buf'.toList = weakState [] ++ buf.toList.drop 16 := by
  have hfits : (weakState []).length ≤ n := by rwa [length_weakState]
  obtain ⟨buf', hwrite, hbytes⟩ := @writeFront_of_le n buf _ hfits
  refine ⟨buf', ?_, ?_⟩
  · rw [hashInit, working_run _ _ h]
    change (writeFront buf (weakState []) >>= _).run _ = _
    rw [hwrite]
    rfl
  · rw [hbytes, length_weakState]

/-- An update of any state whose count stays in its range keeps what stands behind it. -/
theorem hashUpdate_run_of_count {n : Nat} {buf : ByteVec n} {chunk : Bytes} {q : State}
    (h : q.failing = false) (hlong : 16 ≤ n)
    (hcount : (wordAt 8 (buf.toList.take 16)).toNat + chunk.length < 2 ^ 64) :
    ∃ buf', (hashUpdate chunk buf).run q = .ok (⟨.ok (), buf'⟩, q.counted) ∧
      buf'.toList = stateBytes (chunk.foldl foldByte (wordAt 0 (buf.toList.take 16)))
        (UInt64.ofNat ((wordAt 8 (buf.toList.take 16)).toNat + chunk.length)) ++
          buf.toList.drop 16 := by
  have hbelow : ¬ Nat.pow 2 64 ≤ (wordAt 8 (buf.toList.take 16)).toNat + chunk.length :=
    Nat.not_le.mpr hcount
  have hroom : (stateBytes (chunk.foldl foldByte (wordAt 0 (buf.toList.take 16)))
      (UInt64.ofNat ((wordAt 8 (buf.toList.take 16)).toNat + chunk.length))).length ≤ n := by
    rwa [length_stateBytes]
  obtain ⟨buf', hwrite, hbytes⟩ := @writeFront_of_le n buf _ hroom
  refine ⟨buf', ?_, ?_⟩
  · rw [hashUpdate, working_run _ _ h, parts_of_le hlong]
    simp only [pure_bind, hbelow, ite_false]
    rw [hwrite]
    rfl
  · rw [hbytes, length_stateBytes]

/-- An update of a state that holds a message. -/
theorem hashUpdate_run {n : Nat} {buf : ByteVec n} {message back : Bytes} (chunk : Bytes)
    {q : State} (h : q.failing = false) (hbuf : buf.toList = weakState message ++ back)
    (hfits : (message ++ chunk).length < 2 ^ 64) :
    ∃ buf', (hashUpdate chunk buf).run q = .ok (⟨.ok (), buf'⟩, q.counted) ∧
      buf'.toList = weakState (message ++ chunk) ++ back := by
  have hlong : 16 ≤ n := by
    rw [← buf.length_toList, hbuf, List.length_append, length_weakState]
    exact Nat.le_add_right _ _
  have hstate : buf.toList.take 16 = weakState message := by
    rw [hbuf, List.take_left' (length_weakState message)]
  have hback : buf.toList.drop 16 = back := by
    rw [hbuf, List.drop_left' (length_weakState message)]
  obtain ⟨hword, hlength⟩ := wordAt_weakState message
  rw [List.length_append] at hfits
  have hcount : (UInt64.ofNat message.length).toNat = message.length := by
    rw [UInt64.toNat_ofNat']
    exact Nat.mod_eq_of_lt (by omega)
  obtain ⟨buf', hrun, hbytes⟩ := @hashUpdate_run_of_count n buf chunk q h hlong
    (by rwa [hstate, hlength, hcount])
  rw [hstate, hword, hlength, hcount, hback] at hbytes
  refine ⟨buf', hrun, ?_⟩
  rw [hbytes, weakState, List.foldl_append, List.length_append]

theorem hashFinal_run {n : Nat} {buf : ByteVec n} {message back : Bytes} {q : State}
    (h : q.failing = false) (hbuf : buf.toList = weakState message ++ back) :
    (hashFinal buf).run q = .ok (⟨.ok (weakDigest message), buf⟩, q.counted) := by
  have hn : n = 16 + back.length := by
    rw [← buf.length_toList, hbuf, List.length_append, length_weakState]
  have hstate : buf.toList.take 16 = weakState message := by
    rw [hbuf, List.take_left' (length_weakState message)]
  obtain ⟨hword, hlength⟩ := wordAt_weakState message
  rw [hashFinal, working_run _ _ h, parts_of_le (by omega)]
  simp only [pure_bind, hstate, hword, hlength]
  rfl

/-! ## Signatures -/

theorem signInPlace_run (secret : SignSecretKey) {front : Bytes} (message : Bytes) {q : State}
    (h : q.failing = false) (hfront : front.length = Size.signature) :
    (InPlace.onBytes (signInPlace secret) (front ++ message)).run q =
      .ok ((.ok (), (weakSignature secret.publicKey message).toList ++ message), q.counted) := by
  have hlong : Size.signature ≤ (front ++ message).length := by
    rw [List.length_append, hfront]
    exact Nat.le_add_right _ _
  have hsignature := (weakSignature secret.publicKey message).length_toList
  have hroom : (weakSignature secret.publicKey message).toList.length ≤
      (front ++ message).length := by rwa [hsignature]
  obtain ⟨buf', hwrite, hbytes⟩ := @writeFront_of_le _ (.ofList (front ++ message)) _ hroom
  rw [ByteVec.toList_ofList, hsignature, List.drop_left' hfront] at hbytes
  rw [InPlace.run_onBytes, signInPlace, working_run _ _ h, parts_of_le hlong]
  simp only [pure_bind, ByteVec.toList_ofList, List.drop_left' hfront, hwrite, StateT.run_pure,
    pure_eq_ok, Except.map_ok, hbytes]

/-- What an opening leaves: the message with its length, which a misreporting stand-in makes
one too long, or a buffer scribbled over. -/
def openReply (misreporting : Bool) (out signed : Bytes) (pk : SignPublicKey) :
    Answer Nat × Bytes :=
  if (weakSignature pk (signed.drop Size.signature)).toList = signed.take Size.signature then
    (.ok ((signed.drop Size.signature).length + if misreporting then 1 else 0),
      signed.drop Size.signature ++ out.drop (signed.drop Size.signature).length)
  else (.error {}, List.replicate out.length 0xee)

theorem openSigned_run {signed out : Bytes} (pk : SignPublicKey) {q : State}
    (h : q.failing = false) (hlong : Size.signature ≤ signed.length)
    (hout : out.length = signed.length) :
    (InPlace.onBytes (openSigned signed pk) out).run q =
      .ok (openReply q.misreporting out signed pk, q.counted) := by
  have hroom : (signed.drop Size.signature).length ≤ out.length := by
    rw [List.length_drop, hout]
    exact Nat.sub_le _ _
  obtain ⟨buf', hwrite, hbytes⟩ := @writeFront_of_le _ (.ofList out) _ hroom
  rw [InPlace.run_onBytes, openSigned, working_run _ _ h, parts_of_le hlong]
  simp only [pure_bind, ByteVec.toList_ofList]
  by_cases hsigned : (weakSignature pk (signed.drop Size.signature)).toList =
      signed.take Size.signature
  · simp only [openReply, hsigned, bne_self_eq_false, Bool.false_eq_true, ite_false, ite_true,
      hwrite, pure_bind]
    exact congrArg (fun bytes => Except.ok ((Except.ok _, bytes), q.counted)) hbytes
  · simp only [openReply, hsigned, bne_iff_ne, ne_eq, not_false_eq_true, ite_true, ite_false]
    rfl

end Strongbox.StandIn
