import Strongbox.Proofs.Bytes
import Strongbox.Proofs.Guard.Reliable

/-! # The memory under a hash stream

A stream is handed a slice of its caller's memory. While it is open, only the bytes that the
provider needs for a state may change, and when it is over the whole slice is zero. -/

namespace Strongbox.Guard

/-! ## Slices -/

/-- A stretch of `n` bytes of memory. -/
structure Slice (n : Nat) where
  offset : Nat
  length : Nat
  fits : offset + length ≤ n

/-- Nothing but the `length` bytes from `offset` on may differ. -/
def KeptOutside {n : Nat} (offset length : Nat) (before after : ByteVec n) : Prop :=
  ∀ i, ¬ (offset ≤ i ∧ i < offset + length) → after.toList[i]? = before.toList[i]?

theorem KeptOutside.refl {n : Nat} (offset length : Nat) (memory : ByteVec n) :
    KeptOutside offset length memory memory := fun _ _ => rfl

theorem KeptOutside.trans {n offset length : Nat} {a b c : ByteVec n}
    (hab : KeptOutside offset length a b) (hbc : KeptOutside offset length b c) :
    KeptOutside offset length a c := by
  intro i hi
  rw [hbc i hi, hab i hi]

theorem KeptOutside.mono {n offset length length' : Nat} {a b : ByteVec n}
    (h : KeptOutside offset length a b) (hle : length ≤ length') :
    KeptOutside offset length' a b := by
  intro i hi
  exact h i (by omega)

namespace Slice

variable {n : Nat} (slice : Slice n)

/-- The bytes of the memory that the slice covers. -/
def bytes (memory : ByteVec n) : Bytes := (memory.toList.drop slice.offset).take slice.length

/-- The memory with new bytes in the slice. -/
def put (memory : ByteVec n) (state : Bytes) : ByteVec n := memory.overwrite slice.offset state

def Wiped (memory : ByteVec n) : Prop :=
  ∀ i, slice.offset ≤ i ∧ i < slice.offset + slice.length → memory.toList[i]? = some 0

@[simp] theorem length_bytes (memory : ByteVec n) :
    (slice.bytes memory).length = slice.length := by
  have h := slice.fits
  rw [bytes, List.length_take, List.length_drop, ByteVec.length_toList]
  omega

theorem getElem?_bytes (memory : ByteVec n) {j : Nat} (h : j < slice.length) :
    (slice.bytes memory)[j]? = memory.toList[slice.offset + j]? := by
  rw [bytes, List.getElem?_take_of_lt h, List.getElem?_drop]

theorem getElem?_put (memory : ByteVec n) {state : Bytes} (h : state.length = slice.length)
    (i : Nat) :
    (slice.put memory state).toList[i]? =
      if slice.offset ≤ i ∧ i < slice.offset + slice.length then state[i - slice.offset]?
      else memory.toList[i]? := by
  have hfits : slice.offset + state.length ≤ n := by
    rw [h]
    exact slice.fits
  rw [put, ByteVec.toList_overwrite hfits, Bytes.getElem?_overwrite (by simpa using hfits), h]

/-- What is put into the slice is read there. -/
theorem bytes_put (memory : ByteVec n) {state : Bytes} (h : state.length = slice.length) :
    slice.bytes (slice.put memory state) = state := by
  apply List.ext_getElem?
  intro j
  rcases Nat.lt_or_ge j slice.length with hj | hj
  · rw [slice.getElem?_bytes _ hj, slice.getElem?_put memory h, if_pos (by omega)]
    congr 1
    omega
  · rw [List.getElem?_eq_none (by simpa using hj), List.getElem?_eq_none (by omega)]

theorem put_bytes (memory : ByteVec n) : slice.put memory (slice.bytes memory) = memory := by
  apply ByteVec.ext
  apply List.ext_getElem?
  intro i
  rw [slice.getElem?_put memory (slice.length_bytes memory)]
  split
  · rename_i hi
    rw [slice.getElem?_bytes memory (by omega)]
    congr 1
    omega
  · rfl

/-- A state that differs in its front only leaves the rest of the memory as it was. -/
theorem keptOutside_put {memory : ByteVec n} {state : Bytes} {least : Nat}
    (h : state.length = slice.length)
    (hbehind : state.drop least = (slice.bytes memory).drop least) :
    KeptOutside slice.offset least memory (slice.put memory state) := by
  intro i hi
  rw [slice.getElem?_put memory h]
  split
  · rename_i hinside
    obtain ⟨j, rfl⟩ : ∃ j, i = slice.offset + (least + j) := ⟨i - slice.offset - least, by omega⟩
    have hj := congrArg (·[j]?) hbehind
    simp only [List.getElem?_drop] at hj
    rw [Nat.add_sub_cancel_left, hj, slice.getElem?_bytes memory (by omega)]
  · rfl

theorem keptOutside_put_all {memory : ByteVec n} {state : Bytes} (h : state.length = slice.length) :
    KeptOutside slice.offset slice.length memory (slice.put memory state) := by
  apply slice.keptOutside_put h
  rw [List.drop_of_length_le (by omega), List.drop_of_length_le (by simp)]

theorem wiped_put_zeros (memory : ByteVec n) :
    slice.Wiped (slice.put memory (Bytes.zeros slice.length)) := by
  intro i hi
  rw [slice.getElem?_put memory (Bytes.length_zeros _), if_pos hi, Bytes.zeros,
    List.getElem?_replicate_of_lt (by omega)]

end Slice

/-! ## The life of a stream in memory -/

variable {σ : Type} {n : Nat}

/-- Something else changes the state of the provider, as when a switch is turned. -/
def disturb (change : σ → σ) : Action σ Unit :=
  modify fun s => { s with provider := change s.provider }

theorem disturb_bind_run {α : Type} (change : σ → σ) (act : Unit → Action σ α) (s : Session σ) :
    (disturb change >>= act).run s = (act ()).run { s with provider := change s.provider } := rfl

/-- A chunk, and what becomes of the provider's state before it comes. -/
structure Arrival (σ : Type) where
  change : σ → σ
  chunk : Bytes

/-- How many bytes arrive. -/
def arriving (arrivals : List (Arrival σ)) : Nat := (arrivals.flatMap Arrival.chunk).length

/-- The answer to a step, and the memory behind it. -/
structure Snapshot (n : Nat) (α : Type) where
  answer : Except CryptoError α
  memory : ByteVec n

/-- A stream as its caller sees it. One that did not start has no further steps. -/
structure Life (n : Nat) where
  started : Snapshot n Unit
  updates : List (Snapshot n Unit) := []
  finished : Option (Snapshot n Digest) := none

variable {P : Provider σ}

def HashStream.updateIn (slice : Slice n) (stream : HashStream P) (memory : ByteVec n)
    (arrival : Arrival σ) : Action σ (Snapshot n Unit × HashStream P) := do
  disturb arrival.change
  let (answer, next) ← stream.update arrival.chunk
  return (⟨answer, slice.put memory next.state⟩, next)

/-- Feeds what arrives, and goes on after a failure. The memory at the end comes last. -/
def HashStream.feedIn (slice : Slice n) (stream : HashStream P) (memory : ByteVec n) :
    List (Arrival σ) → Action σ (List (Snapshot n Unit) × HashStream P × ByteVec n)
  | [] => return ([], stream, memory)
  | arrival :: arrivals => do
    let (snapshot, next) ← stream.updateIn slice memory arrival
    let (snapshots, last, left) ← next.feedIn slice snapshot.memory arrivals
    return (snapshot :: snapshots, last, left)

/-- Ends a stream, after a change of the provider's state, or drops it unfinished. -/
def HashStream.endIn (slice : Slice n) (stream : HashStream P) (memory : ByteVec n) :
    Option (σ → σ) → Action σ (Option (Snapshot n Digest))
  | none => return none
  | some change => do
    disturb change
    let finished ← stream.finish
    return some ⟨finished.result, slice.put memory finished.buffer⟩

/-- A stream in a slice of the memory, from its start to its end. -/
def lifeIn (P : Provider σ) (slice : Slice n) (memory : ByteVec n) (first : σ → σ)
    (arrivals : List (Arrival σ)) (last : Option (σ → σ)) : Action σ (Life n) := do
  disturb first
  let started ← HashStream.start P (slice.bytes memory)
  let begun := slice.put memory started.buffer
  match started.result with
  | .error e => return ⟨⟨.error e, begun⟩, [], none⟩
  | .ok stream =>
    let (updates, stream, left) ← stream.feedIn slice begun arrivals
    let finished ← stream.endIn slice left last
    return ⟨⟨.ok (), begun⟩, updates, finished⟩

/-- What the steps of a stream may do to the memory, where `least` bytes are needed for a
state and `steps` chunks arrive. -/
structure Life.Disciplined (least : Nat) (slice : Slice n) (before : ByteVec n) (steps : Nat)
    (ending : Bool) (life : Life n) : Prop where
  /-- A slice that is too short is refused, and nothing changes. -/
  refused : slice.length < least →
    life = ⟨⟨.error (.capacity least slice.length), before⟩, [], none⟩
  /-- A slice that is long enough is not refused for its length. -/
  admitted : least ≤ slice.length →
    life.started.answer = .ok () ∨ life.started.answer = .error .failure
  /-- A start that fails wipes the slice and nothing else. -/
  rejected : life.started.answer = .error .failure →
    slice.Wiped life.started.memory ∧
      KeptOutside slice.offset slice.length before life.started.memory ∧
      life.updates = [] ∧ life.finished = none
  /-- An open stream has changed only the bytes of its state. -/
  opened : life.started.answer = .ok () →
    (∀ snapshot ∈ life.started :: life.updates,
      KeptOutside slice.offset least before snapshot.memory) ∧
      life.updates.length = steps ∧ life.finished.isSome = ending
  /-- The end wipes the slice and nothing else, whether or not there is a digest. -/
  ended : ∀ snapshot, life.finished = some snapshot →
    slice.Wiped snapshot.memory ∧ KeptOutside slice.offset slice.length before snapshot.memory

/-! ## What the provider has to keep -/

/-- The provider's calls on a hash state leave alone what stands behind the bytes of the
state. They break off only where a count would leave its range. -/
structure WritesInFront (P : Provider σ) : Prop where
  init : ∀ {m : Nat} (q : σ) (buf : ByteVec m), P.hashStateBytes ≤ m →
    Outcome (fun r => r.1.buffer.toList.drop P.hashStateBytes = buf.toList.drop P.hashStateBytes)
      (· = .counterOverflow) ((P.hashInit buf).run q)
  update : ∀ {m : Nat} (q : σ) (chunk : Bytes) (buf : ByteVec m), P.hashStateBytes ≤ m →
    Outcome (fun r => r.1.buffer.toList.drop P.hashStateBytes = buf.toList.drop P.hashStateBytes)
      (· = .counterOverflow) ((P.hashUpdate chunk buf).run q)
  final : ∀ {m : Nat} (q : σ) (buf : ByteVec m), P.hashStateBytes ≤ m →
    Outcome (fun _ => True) (· = .counterOverflow) ((P.hashFinal buf).run q)

/-- The same, of states that took in at most so many bytes, as long as the bytes fit. Only
`breaks` break a call off. -/
structure Steady (P : Provider σ) (fits : Nat → Prop) (Fed : Nat → Bytes → Prop)
    (breaks : Violation → Prop) : Prop where
  fits_of_le : ∀ {k m : Nat}, k ≤ m → fits m → fits k
  init : ∀ {m : Nat} (q : σ) (buf : ByteVec m), P.hashStateBytes ≤ m →
    Outcome (fun r =>
        r.1.buffer.toList.drop P.hashStateBytes = buf.toList.drop P.hashStateBytes ∧
          (r.1.result = .ok () → Fed 0 r.1.buffer.toList))
      breaks ((P.hashInit buf).run q)
  update : ∀ {m k : Nat} (q : σ) {chunk : Bytes} (buf : ByteVec m), P.hashStateBytes ≤ m →
    Fed k buf.toList → fits (k + chunk.length) →
    Outcome (fun r =>
        r.1.buffer.toList.drop P.hashStateBytes = buf.toList.drop P.hashStateBytes ∧
          Fed (k + chunk.length) r.1.buffer.toList)
      breaks ((P.hashUpdate chunk buf).run q)
  final : ∀ {m k : Nat} (q : σ) (buf : ByteVec m), P.hashStateBytes ≤ m → Fed k buf.toList →
    Outcome (fun _ => True) breaks ((P.hashFinal buf).run q)

theorem WritesInFront.steady (h : WritesInFront P) :
    Steady P (fun _ => True) (fun _ _ => True) (· = .counterOverflow) where
  fits_of_le _ _ := trivial
  init q buf hroom := (h.init q buf hroom).imp (fun _ hr => ⟨hr, fun _ => trivial⟩) fun _ => id
  update q chunk buf hroom _ _ :=
    (h.update q chunk buf hroom).imp (fun _ hr => ⟨hr, trivial⟩) fun _ => id
  final q buf hroom _ := h.final q buf hroom

/-- With a reliable provider nothing breaks off. -/
theorem WritesInFront.steady_of_reliable {fits : Nat → Prop} {Fed : Nat → Bytes → Prop}
    (h : WritesInFront P) (hreliable : Reliable P fits Fed) :
    Steady P fits Fed fun _ => False where
  fits_of_le := hreliable.fits_of_le
  init {m} q buf hroom := by
    obtain ⟨state, rfl⟩ := buf
    have hfed := InPlace.outcome_onBytes_iff.mp (hreliable.init q hroom)
    exact ((h.init q (.ofList state) hroom).and hfed).imp (fun _ hr => hr) fun _ hv => hv.2
  update {m k} q chunk buf hroom hold hfits := by
    obtain ⟨state, rfl⟩ := buf
    have hbytes : Outcome (fun r => Fed (k + chunk.length) r.1.2) (fun _ => False)
        ((InPlace.onBytes (P.hashUpdate chunk) state).run q) :=
      hreliable.update q hroom hold hfits
    have hfed := InPlace.outcome_onBytes_iff.mp hbytes
    exact ((h.update q chunk (.ofList state) hroom).and hfed).imp (fun _ hr => hr) fun _ hv => hv.2
  final {m k} q buf hroom hold := by
    obtain ⟨state, rfl⟩ := buf
    exact InPlace.outcome_onBytes_iff.mp (hreliable.final q hroom hold)

namespace Steady

variable {fits : Nat → Prop} {Fed : Nat → Bytes → Prop} {breaks : Violation → Prop}
  {slice : Slice n} {stream : HashStream P} {memory : ByteVec n} {k : Nat}

/-- What one update preserves. The stream's state stands in the slice, and what is behind it
stays. -/
theorem updateIn (h : Steady P fits Fed breaks) (s : Session σ) (arrival : Arrival σ)
    (hstate : slice.bytes memory = stream.state) (hfed : Fed k stream.state)
    (hfits : fits (k + arrival.chunk.length)) :
    Outcome (fun r => KeptOutside slice.offset P.hashStateBytes memory r.1.1.memory ∧
        slice.bytes r.1.1.memory = r.1.2.state ∧ Fed (k + arrival.chunk.length) r.1.2.state)
      breaks ((stream.updateIn slice memory arrival).run s) := by
  have hlength : stream.state.length = slice.length := by rw [← hstate, slice.length_bytes]
  have hcall := h.update (arrival.change s.provider) (.ofList stream.state)
    stream.hashStateBytes_le hfed hfits
  rw [HashStream.updateIn, disturb_bind_run, StateT.run_bind, HashStream.update_run,
    map_eq_pure_bind,
    bind_assoc]
  apply hcall.bind
  rintro ⟨⟨answer, buf⟩, q⟩ ⟨hbehind, hnext⟩
  have hbuf : buf.toList.length = slice.length := by rw [buf.length_toList, hlength]
  refine ⟨slice.keptOutside_put hbuf ?_, slice.bytes_put memory hbuf, hnext⟩
  rw [hstate]
  exact hbehind

/-- What a run of updates preserves, by induction on what arrives. -/
theorem feedIn (h : Steady P fits Fed breaks) (arrivals : List (Arrival σ)) (s : Session σ)
    (hstate : slice.bytes memory = stream.state) (hfed : Fed k stream.state)
    (hfits : fits (k + arriving arrivals)) :
    Outcome (fun r =>
        (∀ snapshot ∈ r.1.1, KeptOutside slice.offset P.hashStateBytes memory snapshot.memory) ∧
        r.1.1.length = arrivals.length ∧
        KeptOutside slice.offset P.hashStateBytes memory r.1.2.2 ∧
        slice.bytes r.1.2.2 = r.1.2.1.state ∧ ∃ k', Fed k' r.1.2.1.state)
      breaks ((stream.feedIn slice memory arrivals).run s) := by
  induction arrivals generalizing stream memory k s with
  | nil => exact ⟨List.forall_mem_nil _, rfl, .refl _ _ _, hstate, k, hfed⟩
  | cons arrival arrivals ih =>
      have hsum : arriving (arrival :: arrivals) = arrival.chunk.length + arriving arrivals := by
        simp [arriving]
      rw [hsum, ← Nat.add_assoc] at hfits
      rw [HashStream.feedIn, StateT.run_bind]
      apply (h.updateIn s arrival hstate hfed (h.fits_of_le (Nat.le_add_right _ _) hfits)).bind
      rintro ⟨⟨snapshot, next⟩, t⟩ ⟨hkept, hnext, hfed'⟩
      rw [StateT.run_bind]
      apply (ih t hnext hfed' hfits).bind
      rintro ⟨⟨snapshots, last, left⟩, u⟩ ⟨hall, hlength, hleft, hlast, hrest⟩
      refine ⟨?_, congrArg (· + 1) hlength, hkept.trans hleft, hlast, hrest⟩
      exact List.forall_mem_cons.mpr ⟨hkept, fun x hx => hkept.trans (hall x hx)⟩

/-- The end of a stream wipes its slice, whatever the provider answers. -/
theorem endIn (h : Steady P fits Fed breaks) (s : Session σ) (last : Option (σ → σ))
    (hstate : slice.bytes memory = stream.state) (hfed : Fed k stream.state) :
    Outcome (fun r => r.1.isSome = last.isSome ∧ ∀ snapshot, r.1 = some snapshot →
        slice.Wiped snapshot.memory ∧
          KeptOutside slice.offset slice.length memory snapshot.memory)
      breaks ((stream.endIn slice memory last).run s) := by
  cases last with
  | none => exact ⟨rfl, nofun⟩
  | some change =>
      have hlength : stream.state.length = slice.length := by rw [← hstate, slice.length_bytes]
      have hcall := h.final (change s.provider) (.ofList stream.state) stream.hashStateBytes_le hfed
      rw [HashStream.endIn, disturb_bind_run, StateT.run_bind, HashStream.finish_run,
        map_eq_pure_bind, bind_assoc]
      apply hcall.bind
      rintro ⟨⟨answer, buf⟩, q⟩ -
      refine ⟨rfl, ?_⟩
      rintro snapshot hsnapshot
      obtain rfl := Option.some.inj hsnapshot
      simp only [hlength]
      exact ⟨slice.wiped_put_zeros memory, slice.keptOutside_put_all (Bytes.length_zeros _)⟩

/-- A stream keeps the discipline from its start to its end. -/
theorem lifeIn (h : Steady P fits Fed breaks) (slice : Slice n) (memory : ByteVec n)
    (first : σ → σ) (arrivals : List (Arrival σ)) (last : Option (σ → σ)) (s : Session σ)
    (hfits : fits (arriving arrivals)) :
    Outcome (fun r => r.1.Disciplined P.hashStateBytes slice memory arrivals.length last.isSome)
      breaks ((Guard.lifeIn P slice memory first arrivals last).run s) := by
  have hlength := slice.length_bytes memory
  rw [Guard.lifeIn, disturb_bind_run, StateT.run_bind]
  by_cases hshort : (slice.bytes memory).length < P.hashStateBytes
  · rw [HashStream.start_run_of_small P _ hshort]
    rw [hlength] at hshort
    refine ⟨fun _ => ?_, fun hroom => absurd hshort (Nat.not_lt.mpr hroom), nofun, nofun, nofun⟩
    simp [Written.refuse, slice.put_bytes]
  · have hroom := Nat.le_of_not_lt hshort
    rw [HashStream.start_run P _ hroom, map_eq_pure_bind, bind_assoc]
    rw [hlength] at hshort
    apply (h.init (first s.provider) (.ofList (slice.bytes memory)) hroom).bind
    rintro ⟨⟨answer, buf⟩, q⟩ ⟨hbehind, hfed⟩
    have hbuf : buf.toList.length = slice.length := by rw [buf.length_toList, hlength]
    cases answer with
    | error e =>
        refine ⟨fun hlt => absurd hlt hshort, fun _ => .inr rfl, fun _ => ⟨?_, ?_, rfl, rfl⟩, nofun,
          nofun⟩
        · simp only [hlength]
          exact slice.wiped_put_zeros memory
        · apply slice.keptOutside_put_all
          rw [Bytes.length_zeros, hlength]
    | ok u =>
        let stream := (⟨slice.bytes memory, hroom⟩ : HashStream P).stored buf
        let begun := slice.put memory buf.toList
        have hbegun : KeptOutside slice.offset P.hashStateBytes memory begun :=
          slice.keptOutside_put hbuf hbehind
        have hstate : slice.bytes begun = stream.state := slice.bytes_put memory hbuf
        have hfits' : fits (0 + arriving arrivals) := by rwa [Nat.zero_add]
        simp only [pure_bind, StateT.run_bind]
        apply (h.feedIn arrivals _ hstate (hfed rfl) hfits').bind
        rintro ⟨⟨updates, stream', left⟩, t⟩ ⟨hall, hupdates, hleft, hlast, k', hfed'⟩
        apply (h.endIn t last hlast hfed').bind
        rintro ⟨finished, u⟩ ⟨hfinished, hended⟩
        refine ⟨fun hlt => absurd hlt hshort, fun _ => .inl rfl, nofun,
          fun _ => ⟨?_, hupdates, hfinished⟩, ?_⟩
        · exact List.forall_mem_cons.mpr ⟨hbegun, fun x hx => hbegun.trans (hall x hx)⟩
        · intro snapshot hsnapshot
          obtain ⟨hwiped, hkept⟩ := hended snapshot hsnapshot
          exact ⟨hwiped, ((hbegun.trans hleft).mono (Nat.le_of_not_lt hshort)).trans hkept⟩

end Steady

end Strongbox.Guard
