import Strongbox.Session

/-! Guarded hashing, of a whole message or of chunks over a state in the
caller's buffer. An open stream carries the proof that its state is long enough. -/

namespace Strongbox.Guard

open Strongbox.Action

variable {σ : Type}

/-- Owned storage for the state of a hash, large enough for every real provider. -/
structure StateBuffer extends ByteVec Size.hashState
deriving DecidableEq

namespace StateBuffer

def fresh : StateBuffer := ⟨.zeros Size.hashState⟩

/-- Wiping leaves nothing of the old state. -/
def wipe (_ : StateBuffer) : StateBuffer := fresh

/-- The shown form, without the contents. -/
def describe (_ : StateBuffer) : String :=
  s!"HashStateBuffer \x7b capacity: {Size.hashState} \x7d"

end StateBuffer

def digest (P : Provider σ) (message : Bytes) : Action σ (Except CryptoError Digest) := do
  match ← call (P.digest message) with
  | .ok digest => return .ok digest
  | .error _ => return .error .failure

/-- A hash in progress. Only the provider looks inside the state. -/
structure HashStream (P : Provider σ) where
  state : Bytes
  hashStateBytes_le : P.hashStateBytes ≤ state.length

namespace HashStream

/-- The shown form of a stream names its provider and the length of its state. -/
def describe {P : Provider σ} (s : HashStream P) : String :=
  s!"HashState \x7b provider: \"{P.name}\", capacity: {s.state.length} \x7d"

/-- Starts a hash in `state`. On success the buffer is the stream's state; a
rejected start wipes it. -/
def start (P : Provider σ) (state : Bytes) : Action σ (Written (HashStream P)) := do
  if h : state.length < P.hashStateBytes then
    emit (.hashStateTooSmall P.name P.hashStateBytes state.length)
    return .refuse (.capacity P.hashStateBytes state.length) state
  else
    let reply ← call (P.hashInit (.ofList state))
    match reply.result with
    | .error _ => return ⟨.error .failure, Bytes.zeros state.length⟩
    | .ok () =>
      emit (.hashStarted P.name)
      let stream : HashStream P := ⟨reply.buffer.toList, by simp; omega⟩
      return ⟨.ok stream, stream.state⟩

/-- Feeds the next chunk, which may be empty. -/
def update {P : Provider σ} (s : HashStream P) (chunk : Bytes) :
    Action σ (Except CryptoError Unit × HashStream P) := do
  emit (.hashing P.name chunk.length)
  let reply ← call (P.hashUpdate chunk (.ofList s.state))
  let stream : HashStream P := ⟨reply.buffer.toList, by simpa using s.hashStateBytes_le⟩
  match reply.result with
  | .ok () => return (.ok (), stream)
  | .error _ => return (.error .failure, stream)

/-- Ends the hash. The state is wiped whether or not there is a digest. -/
def finish {P : Provider σ} (s : HashStream P) : Action σ (Written Digest) := do
  let reply ← call (P.hashFinal (.ofList s.state))
  let wiped := Bytes.zeros s.state.length
  match reply.result with
  | .ok digest => return ⟨.ok digest, wiped⟩
  | .error _ => return ⟨.error .failure, wiped⟩

end HashStream

end Strongbox.Guard
