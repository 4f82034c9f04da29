import Strongbox.Event
import Strongbox.Provider

/-! A session is what a sequence of guarded operations carries along: the
provider's state, and the events logged so far. -/

namespace Strongbox

structure Session (σ : Type) where
  provider : σ
  events : List Event := []

abbrev Action (σ : Type) := StateT (Session σ) (Except Violation)

namespace Action

variable {σ α : Type}

def emit (e : Event) : Action σ Unit :=
  modify fun s => { s with events := s.events ++ [e] }

/-- Runs a step of the provider, which cannot touch the log. -/
def call (step : Step σ α) : Action σ α := fun s => do
  let (a, p) ← step s.provider
  return (a, { s with provider := p })

/-- Splits a buffer behind its first `n` bytes, which must exist. -/
def cut (n : Nat) (b : Bytes) : Action σ (Bytes × Bytes) :=
  if n ≤ b.length then return (b.take n, b.drop n) else throw .outOfRange

@[simp] theorem run_emit (e : Event) (s : Session σ) :
    (emit e).run s = .ok ((), { s with events := s.events ++ [e] }) := rfl

theorem run_call (step : Step σ α) (s : Session σ) :
    (call step).run s = (step s.provider).map fun r => (r.1, { s with provider := r.2 }) := by
  simp only [call, StateT.run]
  cases step s.provider <;> rfl

theorem cut_of_le {n : Nat} {b : Bytes} (h : n ≤ b.length) :
    (cut n b : Action σ _) = pure (b.take n, b.drop n) := by
  simp [cut, h]

end Action

/-- An operation's result, with the caller's buffer as the operation leaves it. -/
structure Written (α : Type) where
  result : Except CryptoError α
  buffer : Bytes

namespace Written

/-- An error that leaves the buffer as it was. -/
def refuse {α : Type} (e : CryptoError) (buffer : Bytes) : Written α := ⟨.error e, buffer⟩

/-- The same outcome on a longer buffer, whose further bytes were not involved. -/
def followedBy {α : Type} (w : Written α) (rest : Bytes) : Written α :=
  ⟨w.result, w.buffer ++ rest⟩

@[simp] theorem result_followedBy {α : Type} (w : Written α) (rest : Bytes) :
    (w.followedBy rest).result = w.result := rfl

@[simp] theorem buffer_followedBy {α : Type} (w : Written α) (rest : Bytes) :
    (w.followedBy rest).buffer = w.buffer ++ rest := rfl

end Written

end Strongbox
