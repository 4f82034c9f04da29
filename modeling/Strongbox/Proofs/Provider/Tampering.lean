import Mathlib.Logic.Function.Basic
import Strongbox.Proofs.Guard.Tampering
import Strongbox.Proofs.Provider.Boxes
import Strongbox.Proofs.Provider.Signing

/-! # What the stand-in notices

Each byte that goes into a weak tag is taken in by one of sixteen slots, in a step that can be
undone whichever byte it was. A difference therefore stays in its slot through all later steps:
the tag shows every change of one byte of the key or of the body, and every change of a body no
longer than the slots. So no altered box opens, and no altered signed message. -/

namespace Strongbox

namespace StandIn

/-! ## Steps on a slot -/

theorem turn_injective : Function.Injective turn := by
  have hback : ∀ b : BitVec 8, turn ⟨b⟩ >>> 3 ||| turn ⟨b⟩ <<< 5 = ⟨b⟩ := by decide
  intro b c h
  calc b = turn b >>> 3 ||| turn b <<< 5 := (hback b.toBitVec).symm
    _ = turn c >>> 3 ||| turn c <<< 5 := by rw [h]
    _ = c := hback c.toBitVec

/-- Three has an inverse among the bytes. -/
theorem mul_three_injective : Function.Injective fun b : UInt8 => b * 3 := by
  intro b c h
  have hback (d : UInt8) : d * 3 * 171 = d := by
    rw [UInt8.mul_assoc]
    exact UInt8.mul_one d
  rw [← hback b, ← hback c]
  exact congrArg (· * 171) h

/-- How a slot takes in a byte of the key, with its position. -/
def keyStep (slot : UInt8) (k : UInt8 × Nat) : UInt8 := slot ^^^ k.1 * 3

/-- How a slot takes in a byte of the body, with its position. -/
def bodyStep (slot : UInt8) (b : UInt8 × Nat) : UInt8 := turn slot ^^^ (b.1 + UInt8.ofNat b.2)

/-- A step that keeps different slots apart, and tells the bytes it takes in apart. -/
structure Telling (step : UInt8 → UInt8 × Nat → UInt8) : Prop where
  slot : ∀ x, Function.Injective fun slot => step slot x
  byte : ∀ slot i, Function.Injective fun b => step slot (b, i)

theorem telling_keyStep : Telling keyStep where
  slot x _ _ h := (UInt8.xor_left_inj (x.1 * 3)).mp h
  byte slot _ _ _ h := mul_three_injective ((UInt8.xor_right_inj slot).mp h)

theorem telling_bodyStep : Telling bodyStep where
  slot x _ _ h := turn_injective ((UInt8.xor_left_inj (x.1 + UInt8.ofNat x.2)).mp h)
  byte slot i _ _ h :=
    (UInt8.add_left_inj (UInt8.ofNat i)).mp ((UInt8.xor_right_inj (turn slot)).mp h)

/-! ## The sixteen slots -/

/-- The slots take bytes in, each at its position. -/
def taken (step : UInt8 → UInt8 × Nat → UInt8) (tag : Bytes) (xs : List (UInt8 × Nat)) : Bytes :=
  xs.foldl (fun tag x => tag.modify (x.2 % 16) fun slot => step slot x) tag

theorem weakTag_eq_taken (key body : Bytes) :
    weakTag key body = taken bodyStep (taken keyStep (Bytes.zeros 16) key.zipIdx) body.zipIdx := rfl

variable {step : UInt8 → UInt8 × Nat → UInt8}

theorem taken_cons (tag : Bytes) (x : UInt8 × Nat) (xs : List (UInt8 × Nat)) :
    taken step tag (x :: xs) = taken step (tag.modify (x.2 % 16) fun slot => step slot x) xs := rfl

@[simp] theorem length_taken (tag : Bytes) (xs : List (UInt8 × Nat)) :
    (taken step tag xs).length = tag.length := by
  induction xs generalizing tag with
  | nil => rfl
  | cons x xs ih => rw [taken_cons, ih, List.length_modify]

theorem modify_injective {f : UInt8 → UInt8} (hf : Function.Injective f) (i : Nat) :
    Function.Injective fun tag : Bytes => tag.modify i f := by
  intro tag tag' h
  apply List.ext_getElem?
  intro j
  have hj := congrArg (·[j]?) h
  simp only [List.getElem?_modify] at hj
  apply Option.map_injective _ hj
  intro b c hbc
  by_cases hij : i = j
  · simp only [hij, if_true] at hbc
    exact hf hbc
  · simpa only [hij, if_false] using hbc

/-- Different slots stay different, whatever bytes they both take in. -/
theorem taken_injective (h : Telling step) (xs : List (UInt8 × Nat)) :
    Function.Injective fun tag => taken step tag xs := by
  induction xs with
  | nil => exact fun _ _ heq => heq
  | cons x xs ih =>
      intro tag tag' heq
      simp only [taken_cons] at heq
      exact modify_injective (h.slot x) (x.2 % 16) (ih heq)

/-- One different byte makes different slots. -/
theorem taken_ne_of_altered (h : Telling step) {a b : Bytes} (hab : Bytes.Altered a b)
    {tag : Bytes} (htag : tag.length = 16) : taken step tag a.zipIdx ≠ taken step tag b.zipIdx := by
  obtain ⟨front, x, y, back, rfl, rfl, hne⟩ := hab
  intro heq
  simp only [List.zipIdx_append, List.zipIdx_cons, Nat.zero_add, taken, List.foldl_append,
    List.foldl_cons] at heq
  -- What stands behind the byte keeps the difference, so it would have to be gone at the byte.
  have hhere := taken_injective h (back.zipIdx (front.length + 1)) heq
  let before := taken step tag front.zipIdx
  have hslot : front.length % 16 < before.length := by
    rw [length_taken, htag]
    exact Nat.mod_lt _ (by decide)
  have hbyte := congrArg (·[front.length % 16]?) hhere
  change (before.modify _ _)[_]? = (before.modify _ _)[_]? at hbyte
  simp only [List.getElem?_modify, if_true, List.getElem?_eq_getElem hslot] at hbyte
  exact hne (h.byte _ _ (Option.some.inj hbyte))

/-- A slot that lies before the next position stays as it is. -/
theorem getElem?_taken_of_lt {xs : Bytes} {k j : Nat} (tag : Bytes) (hj : j < k)
    (hfits : k + xs.length ≤ 16) : (taken step tag (xs.zipIdx k))[j]? = tag[j]? := by
  induction xs generalizing k tag with
  | nil => rfl
  | cons x xs ih =>
      rw [List.length_cons] at hfits
      have hother : k % 16 ≠ j := by omega
      rw [List.zipIdx_cons, taken_cons, ih _ (by omega) (by omega), List.getElem?_modify]
      simp only [hother, if_false, id_map']

/-- Bytes that have a slot each are all told apart. -/
theorem eq_of_taken_eq (h : Telling step) {xs ys : Bytes} {k : Nat} {tag : Bytes}
    (htag : tag.length = 16) (hlength : xs.length = ys.length) (hfits : k + xs.length ≤ 16)
    (heq : taken step tag (xs.zipIdx k) = taken step tag (ys.zipIdx k)) : xs = ys := by
  induction xs generalizing ys k tag with
  | nil => exact (List.eq_nil_of_length_eq_zero hlength.symm).symm
  | cons x xs ih =>
      cases ys with
      | nil => cases hlength
      | cons y ys =>
          rw [List.length_cons, List.length_cons, Nat.add_right_cancel_iff] at hlength
          rw [List.length_cons] at hfits
          have hslot : k < tag.length := by omega
          have hmod : k % 16 = k := Nat.mod_eq_of_lt (by omega)
          simp only [List.zipIdx_cons, taken_cons, hmod] at heq
          have hbyte := congrArg (fun slots : Bytes => slots[k]?) heq
          rw [getElem?_taken_of_lt _ (Nat.lt_succ_self k) (by omega),
            getElem?_taken_of_lt _ (Nat.lt_succ_self k) (by omega)] at hbyte
          simp only [List.getElem?_modify, if_true, List.getElem?_eq_getElem hslot] at hbyte
          obtain rfl : x = y := h.byte _ _ (Option.some.inj hbyte)
          rw [ih (by rwa [List.length_modify]) hlength (by omega) heq]

/-! ## The tag -/

theorem length_keyed (key : Bytes) :
    (taken keyStep (Bytes.zeros 16) key.zipIdx).length = 16 := by
  rw [length_taken, Bytes.length_zeros]

theorem weakTag_ne_of_body (key : Bytes) {body body' : Bytes} (h : Bytes.Altered body body') :
    weakTag key body ≠ weakTag key body' := by
  rw [weakTag_eq_taken, weakTag_eq_taken]
  exact taken_ne_of_altered telling_bodyStep h (length_keyed key)

theorem weakTag_ne_of_key {key key' : Bytes} (body : Bytes) (h : Bytes.Altered key key') :
    weakTag key body ≠ weakTag key' body := by
  have hkeyed := taken_ne_of_altered telling_keyStep h (Bytes.length_zeros 16)
  exact fun heq => hkeyed (taken_injective telling_bodyStep body.zipIdx heq)

theorem weakTag_ne_of_short (key : Bytes) {body body' : Bytes} (hne : body ≠ body')
    (hlength : body.length = body'.length) (hshort : body.length ≤ 16) :
    weakTag key body ≠ weakTag key body' := by
  rw [weakTag_eq_taken, weakTag_eq_taken]
  intro heq
  apply hne
  exact eq_of_taken_eq telling_bodyStep (length_keyed key) hlength (by rwa [Nat.zero_add]) heq

/-! ## Signatures and keys -/

/-- A weak signature shows the tag of the message and the tag of its length. -/
theorem tags_of_weakSignature {pk pk' : SignPublicKey} {message message' : Bytes}
    (h : weakSignature pk message = weakSignature pk' message') :
    weakTag pk.toList message = weakTag pk'.toList message' ∧
      weakTag pk.toList (Bytes.ofNatLE 8 message.length) =
        weakTag pk'.toList (Bytes.ofNatLE 8 message'.length) := by
  have hbytes : (weakSignature pk message).toList = (weakSignature pk' message').toList := by
    rw [h]
  simp only [weakSignature, List.append_assoc] at hbytes
  obtain ⟨hmessage, hrest⟩ := List.append_inj hbytes (by simp)
  obtain ⟨-, hrest⟩ := List.append_inj hrest (by simp)
  exact ⟨hmessage, (List.append_inj hrest (by simp)).1⟩

theorem ofNatLE_ne {m n : Nat} (hm : m < 2 ^ 64) (hn : n < 2 ^ 64) (hne : m ≠ n) :
    Bytes.ofNatLE 8 m ≠ Bytes.ofNatLE 8 n := by
  intro heq
  have hvalue := congrArg Bytes.toNatLE heq
  rw [Bytes.toNatLE_ofNatLE, Bytes.toNatLE_ofNatLE] at hvalue
  omega

theorem weakSignature_ne_of_length (pk : SignPublicKey) {message message' : Bytes}
    (h : message.length < 2 ^ 64) (h' : message'.length < 2 ^ 64)
    (hne : message'.length ≠ message.length) :
    weakSignature pk message ≠ weakSignature pk message' := by
  have hlengths : (Bytes.ofNatLE 8 message.length).length =
      (Bytes.ofNatLE 8 message'.length).length := by simp
  have htags := weakTag_ne_of_short pk.toList (ofNatLE_ne h h' hne.symm) hlengths (by simp)
  exact fun heq => htags (tags_of_weakSignature heq).2

/-- No switch is on. -/
def State.Honest (q : State) : Prop := q.failing = false ∧ q.misreporting = false

theorem signingKeys_run {q : State} (h : q.failing = false) :
    ∃ seed, signingKeys.run q = .ok (.ok ((scheme false).publicKey seed,
      .ofHalves seed ((scheme false).publicKey seed)), q.counted) := by
  refine ⟨⟨ByteVec.replicate 32 (UInt8.ofNat q.calls)⟩, ?_⟩
  change (signingKeysOfSeed _).run q = _
  rw [signingKeysOfSeed, asking_run _ h]
  rfl

theorem signingKeys_ends {r : Session State} (h : r.provider.Honest) :
    ∃ seed, (Guard.signingKeys provider).Ends r (.ok ((scheme false).publicKey seed,
      .ofHalves seed ((scheme false).publicKey seed))) := by
  obtain ⟨seed, hrun⟩ := signingKeys_run h.1
  have hcall : provider.signingKeys.run r.provider = _ := hrun
  refine ⟨seed, ?_⟩
  rw [Action.Ends, Guard.signingKeys_run, hcall]
  exact ⟨_, rfl⟩

/-- The secret key of a pair holds the public one. -/
theorem publicKey_of_handsOut {r : Session State} (h : r.provider.Honest) {pk : SignPublicKey}
    {secret : SignSecretKey} (hpair : Guard.HandsOut provider r pk secret) :
    secret.publicKey = pk := by
  have hmade : ∃ seed, (pk, secret) = ((scheme false).publicKey seed,
      SignSecretKey.ofHalves seed ((scheme false).publicKey seed)) := by
    rcases hpair with ⟨seed, hends⟩ | hends
    · exact ⟨seed, Except.ok.inj (hends.unique (signsBy.signingKeysOfSeed_ends h seed))⟩
    · obtain ⟨seed, hmade⟩ := signingKeys_ends h
      exact ⟨seed, Except.ok.inj (hends.unique hmade)⟩
  obtain ⟨seed, hmade⟩ := hmade
  obtain ⟨rfl, rfl⟩ := Prod.mk.inj hmade
  exact SignSecretKey.publicKey_ofHalves _ _

end StandIn

open Guard StandIn

/-- What the stand-in seals opens, and what it signs with a pair of its own opens under the
public key of the pair. With any byte changed, or under a key with any byte changed, or with a
message of another length under its signature, nothing opens and the buffer is wiped. -/
theorem stand_in_notices_tampering :
    (∀ s t : Session State, s.provider.Honest → t.provider.Honest →
      ∀ nonce key message, ∃ box, ProtectsBox provider s t nonce key message box) ∧
    (∀ r s t : Session State, r.provider.Honest → s.provider.Honest → t.provider.Honest →
      (∀ seed, ∃ pk secret, (signingKeysOfSeed provider seed).Ends r (.ok (pk, secret))) ∧
      (∃ pk secret, (Guard.signingKeys provider).Ends r (.ok (pk, secret))) ∧
      ∀ pk secret, HandsOut provider r pk secret → ∀ message, ∃ signature,
        ProtectsMessage provider s t pk secret message signature) := by
  constructor
  · intro s t hs ht nonce key message
    refine ⟨_, sealsBy.protectsBox hs.1 ht.1 ?_ ?_ message⟩
    · intro a b haltered heq
      exact weakTag_ne_of_body key.toList haltered (congrArg ByteVec.toList heq)
    · intro key' body haltered heq
      exact weakTag_ne_of_key body haltered (congrArg ByteVec.toList heq)
  · intro r s t hr hs ht
    refine ⟨fun seed => ⟨_, _, signsBy.signingKeysOfSeed_ends hr seed⟩, ?_, ?_⟩
    · obtain ⟨seed, hends⟩ := signingKeys_ends hr
      exact ⟨_, _, hends⟩
    · intro pk secret hpair message
      have hpk := publicKey_of_handsOut hr hpair
      have haccepts {pk message signature} :
          (scheme false).accepts pk message signature = true ↔
            weakSignature pk message = signature := by simp [scheme]
      refine ⟨_, signsBy.protectsMessage hs ht (fun h => (haccepts.mp h).symm) ?_
        (haccepts.mpr rfl) ?_ ?_ ?_⟩
      · rw [← hpk]
        rfl
      · exact fun haltered heq =>
          weakTag_ne_of_body pk.toList haltered (tags_of_weakSignature heq).1
      · exact fun haltered heq => weakTag_ne_of_key message haltered (tags_of_weakSignature heq).1
      · exact fun hword hword' hne => weakSignature_ne_of_length pk hword hword' hne

/-- The key agreed on with another first byte, a message with another last byte, and one that
goes on. -/
theorem changed_bytes_noticed :
    (∃ box, (sealBoxInPlace provider (Bytes.zeros 32 ++ [1, 2]) ⟨.zeros 24⟩ ⟨.zeros 32⟩).Ends
        ⟨{}, []⟩ ⟨.ok (), box⟩ ∧
      RefusesBox provider ⟨{ calls := 1 }, []⟩ ⟨.zeros 24⟩ ⟨⟨7 :: Bytes.zeros 31, rfl⟩⟩ box) ∧
    (∃ pk secret signature, (Guard.signingKeys provider).Ends ⟨{ calls := 3 }, []⟩
        (.ok (pk, secret)) ∧
      (signDetached provider [1, 2] secret).Ends ⟨{}, []⟩ (.ok signature) ∧
      OpensSigned provider ⟨{}, []⟩ pk (signature.toList ++ [1, 2]) [1, 2] ∧
      RefusesSigned provider ⟨{}, []⟩ pk (signature.toList ++ [1, 3]) ∧
      RefusesSigned provider ⟨{}, []⟩ pk (signature.toList ++ [1, 2, 3])) := by
  obtain ⟨hboxes, hmessages⟩ := stand_in_notices_tampering
  constructor
  · obtain ⟨box, hbox⟩ := hboxes ⟨{}, []⟩ ⟨{ calls := 1 }, []⟩ ⟨rfl, rfl⟩ ⟨rfl, rfl⟩ ⟨.zeros 24⟩
      ⟨.zeros 32⟩ [1, 2]
    refine ⟨box, hbox.seals.inPlace _ (Bytes.length_zeros 32), hbox.foreign _ ?_⟩
    exact ⟨[], 0, 7, Bytes.zeros 31, rfl, rfl, by decide⟩
  · obtain ⟨-, ⟨pk, secret, hpair⟩, hprotects⟩ := hmessages ⟨{ calls := 3 }, []⟩ ⟨{}, []⟩ ⟨{}, []⟩
      ⟨rfl, rfl⟩ ⟨rfl, rfl⟩ ⟨rfl, rfl⟩
    obtain ⟨signature, hsigned⟩ := hprotects pk secret (.inr hpair) [1, 2]
    refine ⟨pk, secret, signature, hpair, hsigned.signs.detached, hsigned.opens, ?_, ?_⟩
    · apply hsigned.altered
      exact ⟨signature.toList ++ [1], 2, 3, [], by simp, by simp, by decide⟩
    · exact hsigned.resized [1, 2, 3] (by decide) (by decide) (by decide)

end Strongbox
