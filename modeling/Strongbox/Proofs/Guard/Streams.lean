import Strongbox.Proofs.Guard.Equations

/-! # Hash streams

A whole stream starts in the caller's buffer, takes its chunks one after another and is
finished. Over a provider that keeps the bytes so far in its state, it ends with the
digest of all of them, wherever they were cut. -/

namespace Strongbox.Guard

variable {σ : Type} {P : Provider σ}

namespace HashStream

/-- The stream with a new state of the same length. -/
def stored (stream : HashStream P) (buf : ByteVec stream.state.length) : HashStream P :=
  ⟨buf.toList, by simpa using stream.hashStateBytes_le⟩

@[simp] theorem state_stored (stream : HashStream P) (buf : ByteVec stream.state.length) :
    (stream.stored buf).state = buf.toList := rfl

/-! ## The three calls -/

theorem start_run_of_small (P : Provider σ) {state : Bytes} (s : Session σ)
    (h : state.length < P.hashStateBytes) :
    (start P state).run s =
      .ok (.refuse (.capacity P.hashStateBytes state.length) state,
        { s with events := s.events ++
          [.hashStateTooSmall P.name P.hashStateBytes state.length] }) := by
  simp only [start, h, dite_true]
  rfl

theorem start_run (P : Provider σ) {state : Bytes} (s : Session σ)
    (h : P.hashStateBytes ≤ state.length) :
    (start P state).run s =
      (fun r => match r.1.result with
        | .ok () => (⟨.ok ((⟨state, h⟩ : HashStream P).stored r.1.buffer), r.1.buffer.toList⟩,
            ⟨r.2, s.events ++ [.hashStarted P.name]⟩)
        | .error _ => (⟨.error .failure, Bytes.zeros state.length⟩, ⟨r.2, s.events⟩)) <$>
          (P.hashInit (.ofList state)).run s.provider := by
  simp only [start, Nat.not_lt.mpr h, dite_false]
  apply Action.run_call_bind
  intro reply q
  obtain ⟨answer, buf⟩ := reply
  cases answer <;> rfl

theorem update_run (stream : HashStream P) (chunk : Bytes) (s : Session σ) :
    (stream.update chunk).run s =
      (fun r => ((reported r.1.result, stream.stored r.1.buffer),
        ⟨r.2, s.events ++ [.hashing P.name chunk.length]⟩)) <$>
          (P.hashUpdate chunk (.ofList stream.state)).run s.provider := by
  rw [update, StateT.run_bind, Action.run_emit, ok_bind]
  apply Action.run_call_bind
  intro reply q
  obtain ⟨answer, buf⟩ := reply
  cases answer <;> rfl

theorem finish_run (stream : HashStream P) (s : Session σ) :
    stream.finish.run s =
      (fun r => (⟨reported r.1.result, Bytes.zeros stream.state.length⟩,
        { s with provider := r.2 })) <$>
          (P.hashFinal (.ofList stream.state)).run s.provider := by
  apply Action.run_call_bind
  intro reply q
  obtain ⟨answer, buf⟩ := reply
  cases answer <;> rfl

/-! ## Whole streams -/

/-- Feeds chunks one after another, and goes on after a failure. -/
def feed (stream : HashStream P) :
    List Bytes → Action σ (List (Except CryptoError Unit) × HashStream P)
  | [] => return ([], stream)
  | chunk :: chunks => do
    let (answer, stream) ← stream.update chunk
    let (answers, stream) ← stream.feed chunks
    return (answer :: answers, stream)

end HashStream

/-- What a stream that could be started answers. -/
structure Streamed where
  updates : List (Except CryptoError Unit)
  digest : Except CryptoError Digest

/-- A stream from its start in `state` to its end. -/
def hashStream (P : Provider σ) (state : Bytes) (chunks : List Bytes) :
    Action σ (Written Streamed) := do
  let started ← HashStream.start P state
  match started.result with
  | .error e => return .refuse e started.buffer
  | .ok stream =>
    let (updates, stream) ← stream.feed chunks
    let finished ← stream.finish
    return ⟨.ok ⟨updates, finished.result⟩, finished.buffer⟩

/-- A stream whose every call succeeds. -/
def Streamed.success (chunks : List Bytes) (digest : Digest) : Streamed :=
  ⟨chunks.map fun _ => .ok (), .ok digest⟩

theorem hashStream_run_of_small (P : Provider σ) {state : Bytes} (chunks : List Bytes)
    (s : Session σ) (h : state.length < P.hashStateBytes) :
    (hashStream P state chunks).run s =
      .ok (.refuse (.capacity P.hashStateBytes state.length) state,
        { s with events := s.events ++
          [.hashStateTooSmall P.name P.hashStateBytes state.length] }) := by
  simp only [hashStream, StateT.run_bind, HashStream.start_run_of_small P s h, ok_bind]
  rfl

/-- The calls of a provider that hashes: in the states that are `ready`, its calls on a
hash state succeed, and `Holds` connects the state with the bytes taken in. Messages
whose length does not fit are left out. -/
structure Hashes (P : Provider σ) (ready : σ → Prop) (fits : Nat → Prop)
    (hash : Bytes → Digest) (Holds : Bytes → Bytes → Prop) : Prop where
  fits_of_le : ∀ {m n : Nat}, m ≤ n → fits n → fits m
  digest : ∀ {q : σ} (message : Bytes), ready q →
    ∃ q', (P.digest message).run q = .ok (.ok (hash message), q') ∧ ready q'
  init : ∀ {q : σ} {n : Nat} (buf : ByteVec n), ready q → P.hashStateBytes ≤ n →
    ∃ buf' q', (P.hashInit buf).run q = .ok (⟨.ok (), buf'⟩, q') ∧ ready q' ∧
      Holds [] buf'.toList
  update : ∀ {q : σ} {n : Nat} {buf : ByteVec n} {message : Bytes} (chunk : Bytes),
    ready q → Holds message buf.toList → fits (message ++ chunk).length →
    ∃ buf' q', (P.hashUpdate chunk buf).run q = .ok (⟨.ok (), buf'⟩, q') ∧ ready q' ∧
      Holds (message ++ chunk) buf'.toList
  final : ∀ {q : σ} {n : Nat} {buf : ByteVec n} {message : Bytes},
    ready q → Holds message buf.toList →
    ∃ buf' q', (P.hashFinal buf).run q = .ok (⟨.ok (hash message), buf'⟩, q') ∧ ready q'

namespace Hashes

variable {ready : σ → Prop} {fits : Nat → Prop} {hash : Bytes → Digest}
  {Holds : Bytes → Bytes → Prop}

theorem digest_ends (h : Hashes P ready fits hash Holds) {s : Session σ}
    (hready : ready s.provider) (message : Bytes) :
    (Guard.digest P message).Ends s (.ok (hash message)) := by
  obtain ⟨q, hrun, -⟩ := h.digest message hready
  refine ⟨{ s with provider := q }, ?_⟩
  rw [digest_run, hrun]
  rfl

theorem fits_front (h : Hashes P ready fits hash Holds) {front rest : Bytes}
    (hfits : fits (front ++ rest).length) : fits front.length := by
  apply h.fits_of_le _ hfits
  rw [List.length_append]
  exact Nat.le_add_right _ _

/-- What a run of updates preserves: the state holds the bytes before it and all chunks. -/
theorem feed_run (h : Hashes P ready fits hash Holds) (chunks : List Bytes)
    {stream : HashStream P} {s : Session σ} {message : Bytes} (hready : ready s.provider)
    (hholds : Holds message stream.state)
    (hfits : fits (message ++ chunks.flatten).length) :
    ∃ next t, (stream.feed chunks).run s = .ok ((chunks.map fun _ => .ok (), next), t) ∧
      ready t.provider ∧ Holds (message ++ chunks.flatten) next.state ∧
      next.state.length = stream.state.length := by
  induction chunks generalizing stream s message with
  | nil =>
      refine ⟨stream, s, rfl, hready, ?_, rfl⟩
      rwa [List.flatten_nil, List.append_nil]
  | cons chunk chunks ih =>
      rw [List.flatten_cons, ← List.append_assoc] at hfits ⊢
      obtain ⟨buf, q, hupdate, hq, hheld⟩ :=
        @h.update _ _ (.ofList stream.state) _ chunk hready hholds (h.fits_front hfits)
      obtain ⟨next, t, hrest, ht, hnext, hlength⟩ :=
        @ih (stream.stored buf) ⟨q, s.events ++ [.hashing P.name chunk.length]⟩ _ hq hheld hfits
      refine ⟨next, t, ?_, ht, hnext, ?_⟩
      · simp only [HashStream.feed, StateT.run_bind, HashStream.update_run, hupdate,
          Except.map_ok, ok_bind, hrest]
        rfl
      · rw [hlength, HashStream.state_stored, ByteVec.length_toList]

/-- A stream in a buffer that is long enough succeeds throughout, ends with the digest
of the chunks in order, and leaves the buffer wiped. -/
theorem hashStream_ends (h : Hashes P ready fits hash Holds) {s : Session σ} {state : Bytes}
    {chunks : List Bytes} (hready : ready s.provider) (hstate : P.hashStateBytes ≤ state.length)
    (hfits : fits chunks.flatten.length) :
    (hashStream P state chunks).Ends s
      ⟨.ok (.success chunks (hash chunks.flatten)), Bytes.zeros state.length⟩ := by
  obtain ⟨buf, q, hinit, hq, hheld⟩ := h.init (.ofList state) hready hstate
  let started : HashStream P := (⟨state, hstate⟩ : HashStream P).stored buf
  let begun : Session σ := ⟨q, s.events ++ [.hashStarted P.name]⟩
  have hbegun : ready begun.provider := hq
  have hstarted : Holds [] started.state := hheld
  obtain ⟨stream, t, hfeed, ht, hall, hlength⟩ := h.feed_run chunks hbegun hstarted hfits
  rw [List.nil_append] at hall
  obtain ⟨last, q', hfinal, -⟩ := @h.final _ _ (.ofList stream.state) _ ht hall
  rw [HashStream.state_stored, ByteVec.length_toList] at hlength
  refine ⟨{ t with provider := q' }, ?_⟩
  simp only [hashStream, StateT.run_bind, HashStream.start_run P s hstate, hinit,
    Except.map_ok, ok_bind]
  rw [hfeed]
  simp only [ok_bind, HashStream.finish_run, hfinal, Except.map_ok, hlength]
  rfl

end Hashes

end Strongbox.Guard
