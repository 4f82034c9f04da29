import Strongbox.Proofs.Bytes
import Strongbox.Proofs.Guard.Streams
import Strongbox.Proofs.Provider.StandIn
import Strongbox.Proofs.Sha512.Standard
import Strongbox.Provider.Joined
import Strongbox.Provider.Split

/-! # Hashing with every provider

Each provider keeps the bytes of a stream in a state of its own: a word and a length, or
a midstate in one of two layouts. All of them hash a stream as they hash the whole. -/

namespace Strongbox

open Guard

namespace StandIn

/-- The front of a state in use is what the message so far determines. -/
def Holds (message bytes : Bytes) : Prop := ∃ back, bytes = weakState message ++ back

theorem hashes :
    Hashes provider (fun q => q.failing = false) (· < 2 ^ 64) weakDigest Holds where
  fits_of_le hle hfits := Nat.lt_of_le_of_lt hle hfits
  digest message hready := ⟨_, digest_run message hready, hready⟩
  init buf hready hlong := by
    obtain ⟨buf', hrun, hbuf⟩ := hashInit_run buf hready hlong
    exact ⟨buf', _, hrun, hready, _, hbuf⟩
  update chunk hready hholds hfits := by
    obtain ⟨back, hbuf⟩ := hholds
    obtain ⟨buf', hrun, hnew⟩ := hashUpdate_run chunk hready hbuf hfits
    exact ⟨buf', _, hrun, hready, back, hnew⟩
  final hready hholds := by
    obtain ⟨back, hbuf⟩ := hholds
    exact ⟨_, _, hashFinal_run hready hbuf, hready⟩

end StandIn

namespace Split

variable (p : Primitives)

/-- A stored midstate is reached by the message, and counts it exactly. -/
def Holds (message bytes : Bytes) : Prop :=
  ∃ s back, bytes = s.toBytes.toList ++ back ∧
    Sha512.Midstate.Reached p.compress .initial message s ∧ s.count.toNat = message.length

theorem load?_of_front {n : Nat} {buf : ByteVec n} {s : Sha512.Midstate} {back : Bytes}
    (h : buf.toList = s.toBytes.toList ++ back) : load? buf = some s := by
  have hle := ByteVec.le_of_append h
  simp only [load?, hle, dite_true, ByteVec.first_of_append h hle,
    Sha512.Midstate.ofBytes_toBytes]

theorem toList_store {n : Nat} (buf : ByteVec n) (s : Sha512.Midstate)
    (h : Size.hashState ≤ n) :
    (store buf s).toList = s.toBytes.toList ++ buf.toList.drop Size.hashState :=
  ByteVec.toList_overwrite_front buf s.toBytes h

theorem hashInit_run {n : Nat} (buf : ByteVec n) (q : Entropy) (h : Size.hashState ≤ n) :
    (hashInit buf).run q = .ok (⟨.ok (), store buf .initial⟩, q) := by
  simp only [hashInit, Nat.not_lt.mpr h, ite_false]
  rfl

theorem hashUpdate_run {n : Nat} {buf : ByteVec n} {s : Sha512.Midstate} (chunk : Bytes)
    (q : Entropy) (h : load? buf = some s) (hcount : s.count.toNat + chunk.length < 2 ^ 128) :
    (hashUpdate p chunk buf).run q =
      .ok (⟨.ok (), store buf (s.update p.compress chunk)⟩, q) := by
  have hbelow : ¬ Nat.pow 2 128 ≤ s.count.toNat + chunk.length := Nat.not_le.mpr hcount
  simp only [hashUpdate, h, hbelow, ite_false]
  rfl

theorem hashFinal_run {n : Nat} {buf : ByteVec n} {s : Sha512.Midstate} (q : Entropy)
    (h : load? buf = some s) :
    (hashFinal p buf).run q =
      .ok (⟨.ok (s.finish p.compress).digest, store buf (s.finish p.compress)⟩, q) := by
  simp only [hashFinal, h]
  rfl

theorem hashes :
    Hashes (provider p) (fun _ => True) (· < 2 ^ 128) (Sha512.digest p.compress) (Holds p) where
  fits_of_le hle hfits := Nat.lt_of_le_of_lt hle hfits
  digest _ _ := ⟨_, rfl, trivial⟩
  init {q _} buf _ hlong := by
    refine ⟨_, _, hashInit_run buf q hlong, trivial, .initial, _, toList_store buf _ hlong, ?_, rfl⟩
    exact Sha512.Midstate.reached_nil _ _
  update {q _ buf _} chunk _ hholds hfits := by
    obtain ⟨s, back, hbuf, hreached, hcount⟩ := hholds
    have hle := ByteVec.le_of_append hbuf
    rw [List.length_append, ← hcount] at hfits
    refine ⟨_, _, hashUpdate_run p chunk q (load?_of_front hbuf) hfits, trivial,
      s.update p.compress chunk, _, toList_store buf _ hle, hreached.update chunk, ?_⟩
    rw [Sha512.Midstate.update_count, BitVec.toNat_add, BitVec.toNat_ofNat, List.length_append,
      ← hcount]
    omega
  final {q _ _ _} _ hholds := by
    obtain ⟨s, back, hbuf, hreached, -⟩ := hholds
    exact ⟨_, _, by rw [← hreached.digest]; exact hashFinal_run p q (load?_of_front hbuf), trivial⟩

theorem hashUpdate_overflows {n : Nat} {buf : ByteVec n} {s : Sha512.Midstate} (chunk : Bytes)
    (q : Entropy) (h : load? buf = some s) (hcount : 2 ^ 128 ≤ s.count.toNat + chunk.length) :
    (hashUpdate p chunk buf).run q = .error .counterOverflow := by
  have hover : Nat.pow 2 128 ≤ s.count.toNat + chunk.length := hcount
  simp only [hashUpdate, h, hover, ite_true]
  rfl

/-- The chunk that would leave the range of the counter ends the run. -/
theorem feed_overflows (chunks : List Bytes) {stream : HashStream (provider p)}
    {t : Session Entropy} {message : Bytes} (hholds : Holds p message stream.state)
    (hmessage : message.length < 2 ^ 128)
    (h : 2 ^ 128 ≤ (message ++ chunks.flatten).length) :
    (stream.feed chunks).run t = .error .counterOverflow := by
  induction chunks generalizing stream t message with
  | nil =>
      rw [List.flatten_nil, List.append_nil] at h
      omega
  | cons chunk chunks ih =>
      rw [List.flatten_cons, ← List.append_assoc] at h
      rw [HashStream.feed, StateT.run_bind, HashStream.update_run]
      by_cases hfits : (message ++ chunk).length < 2 ^ 128
      · obtain ⟨buf, q, hupdate, -, hheld⟩ :=
          @(hashes p).update t.provider _ (.ofList stream.state) _ chunk trivial hholds hfits
        rw [hupdate, Except.map_ok, ok_bind, StateT.run_bind]
        rw [@ih (stream.stored buf) _ _ hheld hfits h]
        rfl
      · obtain ⟨s, back, hbuf, -, hcount⟩ := hholds
        have hover : 2 ^ 128 ≤ s.count.toNat + chunk.length := by
          rw [hcount, ← List.length_append]
          exact Nat.le_of_not_lt hfits
        have hupdate : ((provider p).hashUpdate chunk (.ofList stream.state)).run t.provider =
            .error .counterOverflow :=
          hashUpdate_overflows p chunk _ (load?_of_front hbuf) hover
        rw [hupdate]
        rfl

theorem hashStream_overflows {state : Bytes} {chunks : List Bytes} (t : Session Entropy)
    (hstate : Size.hashState ≤ state.length) (h : 2 ^ 128 ≤ chunks.flatten.length) :
    (hashStream (provider p) state chunks).run t = .error .counterOverflow := by
  obtain ⟨buf, q, hinit, -, hheld⟩ :=
    @(hashes p).init t.provider _ (.ofList state) trivial hstate
  let started := (⟨state, hstate⟩ : HashStream (provider p)).stored buf
  let begun : Session Entropy := ⟨q, t.events ++ [.hashStarted (provider p).name]⟩
  have hstarted : Holds p [] started.state := hheld
  have hfeed : (started.feed chunks).run begun = .error .counterOverflow :=
    feed_overflows p chunks hstarted (by decide) h
  rw [hashStream, StateT.run_bind, HashStream.start_run _ _ hstate, hinit, Except.map_ok,
    ok_bind]
  simp only [StateT.run_bind]
  rw [hfeed]
  rfl

end Split

namespace Joined

variable (p : Primitives)

/-- A stored midstate is reached by the message, up to what the bit counter loses. -/
def Holds (message bytes : Bytes) : Prop :=
  ∃ s back, bytes = s.toBitCountedBytes.toList ++ back ∧
    Sha512.Midstate.Reached p.compress .initial message s

theorem reached_of_front {n : Nat} {buf : ByteVec n} {base s : Sha512.Midstate}
    {back message : Bytes} (h : buf.toList = s.toBitCountedBytes.toList ++ back)
    (hreached : Sha512.Midstate.Reached p.compress base message s) (hlong : ¬ n < Size.hashState) :
    Sha512.Midstate.Reached p.compress base message
      (.ofBitCountedBytes (stateOf buf hlong)) := by
  rw [stateOf, ByteVec.first_of_append h,
    Sha512.Midstate.ofBitCountedBytes_toBitCountedBytes]
  apply hreached.recount
  rw [BitVec.toNat_ofNat]
  omega

theorem hashes :
    Hashes (provider p) (fun _ => True) (fun _ => True) (Sha512.digest p.compress)
      (Holds p) where
  fits_of_le _ _ := trivial
  digest _ _ := ⟨_, rfl, trivial⟩
  init {q n} buf _ hle := by
    have hlong : ¬ n < Size.hashState := Nat.not_lt.mpr hle
    have hrun : (hashInit buf).run q =
        .ok (⟨.ok (), buf.overwrite 0 Sha512.Midstate.initial.toBitCountedBytes.toList⟩, q) := by
      simp only [hashInit, hlong, ite_false]
      rfl
    refine ⟨_, _, hrun, trivial, .initial, _, ByteVec.toList_overwrite_front buf _ hle, ?_⟩
    exact Sha512.Midstate.reached_nil _ _
  update {q n buf _} chunk _ hholds _ := by
    obtain ⟨s, back, hbuf, hreached⟩ := hholds
    have hle := ByteVec.le_of_append hbuf
    have hlong : ¬ n < Size.hashState := Nat.not_lt.mpr hle
    have hnext := (reached_of_front p hbuf hreached hlong).update chunk
    have hrun : (hashUpdate p chunk buf).run q = .ok (⟨.ok (), buf.overwrite 0
        ((Sha512.Midstate.ofBitCountedBytes (stateOf buf hlong)).update p.compress
          chunk).toBitCountedBytes.toList⟩, q) := by
      simp only [hashUpdate, hlong, dite_false]
      rfl
    exact ⟨_, _, hrun, trivial, _, _, ByteVec.toList_overwrite_front buf _ hle, hnext⟩
  final {q n buf _} _ hholds := by
    obtain ⟨s, back, hbuf, hreached⟩ := hholds
    have hlong : ¬ n < Size.hashState := Nat.not_lt.mpr (ByteVec.le_of_append hbuf)
    have hnow := reached_of_front p hbuf hreached hlong
    have hrun : (hashFinal p buf).run q =
        .ok (⟨.ok ((Sha512.Midstate.ofBitCountedBytes (stateOf buf hlong)).finish
          p.compress).digest, buf.overwrite 0 (Bytes.zeros Size.hashState)⟩, q) := by
      simp only [hashFinal, hlong, dite_false]
      rfl
    rw [hnow.digest] at hrun
    exact ⟨_, _, hrun, trivial⟩

end Joined

/-! ## Streams and whole messages -/

namespace Guard

/-- A stream succeeds throughout and wipes its buffer, and its digest is the one that a
single call gives for the chunks put together. -/
structure StreamsAsOne {σ : Type} (P : Provider σ) (s t : Session σ) (state : Bytes)
    (chunks : List Bytes) (whole : Digest) : Prop where
  stream : (hashStream P state chunks).Ends s
    ⟨.ok (.success chunks whole), Bytes.zeros state.length⟩
  single : (Guard.digest P chunks.flatten).Ends t (.ok whole)

/-- Cutting a message into chunks changes no digest, and over a compression function the digest
is that of the standard. The stand-in and the provider that counts bytes are bound by the range
of their counters; the bit counter may wrap. -/
theorem hashStream_eq_digest (state : Bytes) (chunks : List Bytes) :
    (∀ s t : Session StandIn.State, s.provider.failing = false → t.provider.failing = false →
      StandIn.provider.hashStateBytes ≤ state.length → chunks.flatten.length < 2 ^ 64 →
      StreamsAsOne StandIn.provider s t state chunks (StandIn.weakDigest chunks.flatten)) ∧
    (∀ (p : Primitives) (s t : Session Entropy),
      (Split.provider p).hashStateBytes ≤ state.length → chunks.flatten.length < 2 ^ 128 →
      ∃ whole, Sha512.StandardDigest p.compress chunks.flatten whole ∧
        StreamsAsOne (Split.provider p) s t state chunks whole) ∧
    (∀ (p : Primitives) (s t : Session Entropy),
      (Joined.provider p).hashStateBytes ≤ state.length →
      ∃ whole, Sha512.StandardDigest p.compress chunks.flatten whole ∧
        StreamsAsOne (Joined.provider p) s t state chunks whole) := by
  refine ⟨?_, ?_, ?_⟩
  · intro s t hs ht hstate hfits
    exact ⟨StandIn.hashes.hashStream_ends hs hstate hfits, StandIn.hashes.digest_ends ht _⟩
  · intro p s t hstate hfits
    exact ⟨_, Sha512.standardDigest_iff.mpr rfl,
      (Split.hashes p).hashStream_ends trivial hstate hfits, (Split.hashes p).digest_ends trivial _⟩
  · intro p s t hstate
    exact ⟨_, Sha512.standardDigest_iff.mpr rfl,
      (Joined.hashes p).hashStream_ends trivial hstate trivial,
      (Joined.hashes p).digest_ends trivial _⟩

/-- What the stand-in gives for the letters `abc`. -/
def weakAbcDigest : Digest := ⟨⟨[
  0x4b, 0x56, 0x43, 0x06, 0x1d, 0xa7, 0x19, 0xe0, 0x43, 0x5e, 0x4b, 0x0e, 0x15, 0xaf, 0x11, 0xe8,
  0x5b, 0x46, 0x53, 0x16, 0x0d, 0xb7, 0x09, 0xf0, 0x53, 0x4e, 0x5b, 0x1e, 0x05, 0xbf, 0x01, 0xf8,
  0x23, 0x21, 0x22, 0x23, 0x24, 0x25, 0x26, 0x27, 0x2b, 0x29, 0x2a, 0x2b, 0x2c, 0x2d, 0x2e, 0x2f,
  0x33, 0x31, 0x32, 0x33, 0x34, 0x35, 0x36, 0x37, 0x3b, 0x39, 0x3a, 0x3b, 0x3c, 0x3d, 0x3e, 0x3f],
  rfl⟩⟩

/-- The letters `abc` in three chunks, one of them empty. -/
theorem three_chunks_as_one :
    StreamsAsOne StandIn.provider ⟨{}, []⟩ ⟨{}, []⟩ (Bytes.zeros 16) [[97], [], [98, 99]]
      weakAbcDigest ∧
    StreamsAsOne (Split.provider (.standard .any)) ⟨⟨fun _ => 0, 0⟩, []⟩
      ⟨⟨fun _ => 0, 0⟩, []⟩ (Bytes.zeros 208) [[97], [], [98, 99]] Sha512.abcDigest ∧
    StreamsAsOne (Joined.provider (.standard .reduced)) ⟨⟨fun _ => 0, 0⟩, []⟩
      ⟨⟨fun _ => 0, 0⟩, []⟩ (Bytes.zeros 208) [[97], [], [98, 99]] Sha512.abcDigest := by
  have hroom : Size.hashState ≤ (Bytes.zeros 208).length :=
    Nat.le_of_eq (Bytes.length_zeros 208).symm
  refine ⟨?_, ?_, ?_⟩
  · exact (hashStream_eq_digest (Bytes.zeros 16) [[97], [], [98, 99]]).1 _ _ rfl rfl (by decide)
      (by decide)
  · obtain ⟨whole, hwhole, hstream⟩ :=
      (hashStream_eq_digest (Bytes.zeros 208) [[97], [], [98, 99]]).2.1 (.standard .any)
        ⟨⟨fun _ => 0, 0⟩, []⟩ ⟨⟨fun _ => 0, 0⟩, []⟩ hroom (by decide)
    obtain rfl := hwhole.unique Sha512.standardDigest_abc
    exact hstream
  · obtain ⟨whole, hwhole, hstream⟩ :=
      (hashStream_eq_digest (Bytes.zeros 208) [[97], [], [98, 99]]).2.2 (.standard .reduced)
        ⟨⟨fun _ => 0, 0⟩, []⟩ ⟨⟨fun _ => 0, 0⟩, []⟩ hroom
    obtain rfl := hwhole.unique Sha512.standardDigest_abc
    exact hstream

end Guard

end Strongbox
