import Mathlib.Data.List.Forall2
import Strongbox.Proofs.Guard.Streams

/-! # Interrupted streams

A provider may have a switch that makes it refuse, which is turned between the calls of a
stream. A refused update takes nothing in and changes nothing, so the stream goes on as if it
had not been made, and ends with the digest of the chunks that were accepted. -/

namespace Strongbox.Guard

variable {σ : Type} {P : Provider σ}

/-- Turns the provider's switch, between two calls. -/
def turnSwitch (switch : Bool → σ → σ) (failing : Bool) : Action σ Unit :=
  modify fun s => { s with provider := switch failing s.provider }

/-- A chunk, and whether the provider is switched to fail when it comes. -/
structure Feeding where
  failing : Bool
  chunk : Bytes

/-- The chunks that come while the provider is not switched to fail. -/
def admissible (feedings : List Feeding) : List Bytes :=
  (feedings.filter fun feeding => !feeding.failing).map Feeding.chunk

/-- An update as it went: its chunk and its answer, between two forms of the stream. -/
structure Update (P : Provider σ) where
  chunk : Bytes
  before : HashStream P
  answer : Except CryptoError Unit
  after : HashStream P

/-- The chunks whose updates were answered with success, in order. -/
def accepted (updates : List (Update P)) : List Bytes :=
  (updates.filter fun update => update.answer.isOk).map Update.chunk

/-- The update of a feeding succeeds exactly if it is not made while failing, and otherwise
leaves the stream as it was. -/
structure Update.Answers (feeding : Feeding) (update : Update P) : Prop where
  chunk_eq : update.chunk = feeding.chunk
  refused : feeding.failing = true →
    update.answer = .error .failure ∧ update.after = update.before
  succeeded : feeding.failing = false → update.answer = .ok ()

theorem admissible_cons (feeding : Feeding) (feedings : List Feeding) :
    admissible (feeding :: feedings) = admissible [feeding] ++ admissible feedings := by
  rw [admissible, ← List.singleton_append, List.filter_append, List.map_append]
  rfl

theorem Update.Answers.isOk_eq {feeding : Feeding} {update : Update P}
    (h : Update.Answers feeding update) : update.answer.isOk = !feeding.failing := by
  cases hfailing : feeding.failing with
  | false =>
      rw [h.succeeded hfailing]
      rfl
  | true =>
      rw [(h.refused hfailing).1]
      rfl

theorem accepted_eq_admissible {feedings : List Feeding} {updates : List (Update P)}
    (h : List.Forall₂ Update.Answers feedings updates) :
    accepted updates = admissible feedings := by
  induction h with
  | nil => rfl
  | @cons feeding update feedings updates hanswers _ ih =>
      rw [accepted, admissible] at ih ⊢
      rw [List.filter_cons, List.filter_cons, hanswers.isOk_eq]
      split
      · rw [List.map_cons, List.map_cons, hanswers.chunk_eq, ih]
      · exact ih

/-! ## Streams under a switch -/

def HashStream.feedOne (switch : Bool → σ → σ) (stream : HashStream P) (feeding : Feeding) :
    Action σ (Except CryptoError Unit × HashStream P) := do
  turnSwitch switch feeding.failing
  stream.update feeding.chunk

/-- Feeds chunks one after another, and goes on after a failure. -/
def HashStream.feedSwitched (switch : Bool → σ → σ) (stream : HashStream P) :
    List Feeding → Action σ (List (Update P) × HashStream P)
  | [] => return ([], stream)
  | feeding :: feedings => do
    let (answer, next) ← stream.feedOne switch feeding
    let (updates, last) ← next.feedSwitched switch feedings
    return (⟨feeding.chunk, stream, answer, next⟩ :: updates, last)

def HashStream.finishSwitched (switch : Bool → σ → σ) (stream : HashStream P) (failing : Bool) :
    Action σ (Written Digest) := do
  turnSwitch switch failing
  stream.finish

structure Lifetime (P : Provider σ) where
  updates : List (Update P)
  digest : Except CryptoError Digest

/-- A stream from its start in `state` to its end, with the switch turned before every call:
to `first` for the start, to `last` for the end. -/
def switchedStream (P : Provider σ) (switch : Bool → σ → σ) (state : Bytes) (first : Bool)
    (feedings : List Feeding) (last : Bool) : Action σ (Written (Lifetime P)) := do
  turnSwitch switch first
  let started ← HashStream.start P state
  match started.result with
  | .error e => return .refuse e started.buffer
  | .ok stream =>
    let (updates, stream) ← stream.feedSwitched switch feedings
    let finished ← stream.finishSwitched switch last
    return ⟨.ok ⟨updates, finished.result⟩, finished.buffer⟩

/-- Streams of the provider survive its failures, whatever way the switch is turned. The
digest of the accepted chunks put together is taken in the session `t`. -/
structure SurvivesFailures (P : Provider σ) (switch : Bool → σ → σ) (s t : Session σ)
    (state : Bytes) (feedings : List Feeding) : Prop where
  start_refused : ∀ last, (switchedStream P switch state true feedings last).Ends s
    ⟨.error .failure, Bytes.zeros state.length⟩
  /-- A failing end gives no digest; any other one gives the digest of what was accepted. -/
  finished : ∃ updates digest, List.Forall₂ Update.Answers feedings updates ∧
    (Guard.digest P (accepted updates).flatten).Ends t (.ok digest) ∧
    ∀ last, (switchedStream P switch state false feedings last).Ends s
      ⟨.ok ⟨updates, if last then .error .failure else .ok digest⟩, Bytes.zeros state.length⟩

/-- The switch makes the provider ready, or makes it refuse all calls on a hash state. A
refused update leaves the state as it was. -/
structure Switches (P : Provider σ) (switch : Bool → σ → σ) (ready : σ → Prop) : Prop where
  ready_off : ∀ q, ready (switch false q)
  init : ∀ {q : σ} {n : Nat} (buf : ByteVec n),
    ∃ e buf' q', (P.hashInit buf).run (switch true q) = .ok (⟨.error e, buf'⟩, q')
  update : ∀ {q : σ} {n : Nat} (chunk : Bytes) (buf : ByteVec n),
    ∃ e q', (P.hashUpdate chunk buf).run (switch true q) = .ok (⟨.error e, buf⟩, q')
  final : ∀ {q : σ} {n : Nat} (buf : ByteVec n),
    ∃ e buf' q', (P.hashFinal buf).run (switch true q) = .ok (⟨.error e, buf'⟩, q')

theorem turnSwitch_bind_run {α : Type} (switch : Bool → σ → σ) (failing : Bool)
    (act : Unit → Action σ α) (s : Session σ) :
    (turnSwitch switch failing >>= act).run s =
      (act ()).run { s with provider := switch failing s.provider } := rfl

namespace Switches

variable {switch : Bool → σ → σ} {ready : σ → Prop} {fits : Nat → Prop} {hash : Bytes → Digest}
  {Holds : Bytes → Bytes → Prop}

/-- An update of any stream that is made while failing leaves the stream as it was. -/
theorem feedOne_ends_of_failing (h : Switches P switch ready) (stream : HashStream P)
    {feeding : Feeding} (s : Session σ) (hfailing : feeding.failing = true) :
    (stream.feedOne switch feeding).Ends s (.error .failure, stream) := by
  obtain ⟨e, q, hupdate⟩ := @h.update s.provider _ feeding.chunk (.ofList stream.state)
  refine ⟨⟨q, s.events ++ [.hashing P.name feeding.chunk.length]⟩, ?_⟩
  rw [HashStream.feedOne, turnSwitch_bind_run, HashStream.update_run, hfailing, hupdate]
  rfl

/-- What one feeding preserves: the state holds what was accepted so far. -/
theorem feedOne_step (h : Switches P switch ready) (hhashes : Hashes P ready fits hash Holds)
    {stream : HashStream P} {message : Bytes} (feeding : Feeding) (s : Session σ)
    (hholds : Holds message stream.state)
    (hfits : fits (message ++ (admissible [feeding]).flatten).length) :
    ∃ answer next, (stream.feedOne switch feeding).Ends s (answer, next) ∧
      Update.Answers feeding ⟨feeding.chunk, stream, answer, next⟩ ∧
      Holds (message ++ (admissible [feeding]).flatten) next.state ∧
      next.state.length = stream.state.length := by
  obtain ⟨failing, chunk⟩ := feeding
  cases failing with
  | true =>
      refine ⟨.error .failure, stream, h.feedOne_ends_of_failing stream s rfl, ?_, ?_, rfl⟩
      · exact ⟨rfl, fun _ => ⟨rfl, rfl⟩, nofun⟩
      · -- Nothing was taken in, so the state still holds what it held.
        have hnothing : (admissible [⟨true, chunk⟩]).flatten = [] := rfl
        rwa [hnothing, List.append_nil]
  | false =>
      have hchunk : (admissible [⟨false, chunk⟩]).flatten = chunk := List.append_nil chunk
      rw [hchunk] at hfits ⊢
      obtain ⟨buf, q, hupdate, -, hheld⟩ := @hhashes.update _ _ (.ofList stream.state) _ chunk
        (h.ready_off s.provider) hholds hfits
      refine ⟨.ok (), stream.stored buf, ?_, ⟨rfl, nofun, fun _ => rfl⟩, hheld, ?_⟩
      · refine ⟨⟨q, s.events ++ [.hashing P.name chunk.length]⟩, ?_⟩
        rw [HashStream.feedOne, turnSwitch_bind_run, HashStream.update_run, hupdate]
        rfl
      · rw [HashStream.state_stored, ByteVec.length_toList]

/-- What a run of feedings preserves. -/
theorem feedSwitched_ends (h : Switches P switch ready)
    (hhashes : Hashes P ready fits hash Holds) (feedings : List Feeding)
    {stream : HashStream P} {message : Bytes} (s : Session σ)
    (hholds : Holds message stream.state)
    (hfits : fits (message ++ (admissible feedings).flatten).length) :
    ∃ updates next, (stream.feedSwitched switch feedings).Ends s (updates, next) ∧
      List.Forall₂ Update.Answers feedings updates ∧
      Holds (message ++ (admissible feedings).flatten) next.state ∧
      next.state.length = stream.state.length := by
  induction feedings generalizing stream s message with
  | nil =>
      refine ⟨[], stream, ⟨s, rfl⟩, .nil, ?_, rfl⟩
      have hnothing : (admissible []).flatten = [] := rfl
      rwa [hnothing, List.append_nil]
  | cons feeding feedings ih =>
      rw [admissible_cons, List.flatten_append, ← List.append_assoc] at hfits ⊢
      obtain ⟨answer, next, ⟨t, hfed⟩, hanswers, hheld, hlength⟩ :=
        h.feedOne_step hhashes feeding s hholds (hhashes.fits_front hfits)
      obtain ⟨updates, last, ⟨u, hrest⟩, hall, hlast, hlengths⟩ := ih t hheld hfits
      refine ⟨_, last, ⟨u, ?_⟩, .cons hanswers hall, hlast, hlengths.trans hlength⟩
      simp only [HashStream.feedSwitched, StateT.run_bind, hfed, ok_bind, hrest]
      rfl

/-- A start that is made while failing wipes the buffer. -/
theorem switchedStream_ends_of_first (h : Switches P switch ready) (s : Session σ)
    {state : Bytes} (feedings : List Feeding) (last : Bool)
    (hstate : P.hashStateBytes ≤ state.length) :
    (switchedStream P switch state true feedings last).Ends s
      ⟨.error .failure, Bytes.zeros state.length⟩ := by
  obtain ⟨e, buf, q, hinit⟩ := @h.init s.provider _ (.ofList state)
  refine ⟨⟨q, s.events⟩, ?_⟩
  rw [switchedStream, turnSwitch_bind_run]
  simp only [StateT.run_bind, HashStream.start_run P _ hstate, hinit, Except.map_ok, ok_bind]
  rfl

theorem finishSwitched_ends (h : Switches P switch ready) (hhashes : Hashes P ready fits hash Holds)
    {stream : HashStream P} {message : Bytes} (last : Bool) (s : Session σ)
    (hholds : Holds message stream.state) :
    (stream.finishSwitched switch last).Ends s
      ⟨if last then .error .failure else .ok (hash message),
        Bytes.zeros stream.state.length⟩ := by
  cases last with
  | true =>
      obtain ⟨e, buf, q, hfinal⟩ := @h.final s.provider _ (.ofList stream.state)
      refine ⟨{ s with provider := q }, ?_⟩
      rw [HashStream.finishSwitched, turnSwitch_bind_run, HashStream.finish_run, hfinal]
      rfl
  | false =>
      obtain ⟨buf, q, hfinal, -⟩ := @hhashes.final _ _ (.ofList stream.state) _
        (h.ready_off s.provider) hholds
      refine ⟨{ s with provider := q }, ?_⟩
      rw [HashStream.finishSwitched, turnSwitch_bind_run, HashStream.finish_run, hfinal]
      rfl

/-- A provider that hashes, and refuses calls without a trace, survives its failures. Only
the chunks that it accepts count for what fits. -/
theorem survivesFailures (h : Switches P switch ready) (hhashes : Hashes P ready fits hash Holds)
    {state : Bytes} {feedings : List Feeding} {s t : Session σ} (ht : ready t.provider)
    (hstate : P.hashStateBytes ≤ state.length)
    (hfits : fits (admissible feedings).flatten.length) :
    SurvivesFailures P switch s t state feedings where
  start_refused last := h.switchedStream_ends_of_first s feedings last hstate
  finished := by
    obtain ⟨buf, q, hinit, -, hheld⟩ :=
      hhashes.init (.ofList state) (h.ready_off s.provider) hstate
    let started : HashStream P := (⟨state, hstate⟩ : HashStream P).stored buf
    let begun : Session σ := ⟨q, s.events ++ [.hashStarted P.name]⟩
    have hstarted : Holds [] started.state := hheld
    obtain ⟨updates, stream, ⟨u, hfeed⟩, hanswers, hall, hlength⟩ :=
      h.feedSwitched_ends hhashes feedings begun hstarted hfits
    rw [List.nil_append] at hall
    rw [HashStream.state_stored, ByteVec.length_toList] at hlength
    refine ⟨updates, hash (admissible feedings).flatten, hanswers, ?_, ?_⟩
    · rw [accepted_eq_admissible hanswers]
      exact hhashes.digest_ends ht _
    · intro last
      obtain ⟨v, hfinish⟩ := h.finishSwitched_ends hhashes last u hall
      rw [hlength] at hfinish
      refine ⟨v, ?_⟩
      rw [switchedStream, turnSwitch_bind_run]
      simp only [StateT.run_bind, HashStream.start_run P _ hstate, hinit, Except.map_ok, ok_bind]
      rw [hfeed]
      simp only [ok_bind, hfinish]
      rfl

end Switches

end Strongbox.Guard
