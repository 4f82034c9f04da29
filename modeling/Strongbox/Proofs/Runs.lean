import Mathlib.Control.Monad.Basic
import Strongbox.Session

/-! # Runs

How an action in a session ends, and calls on buffers seen as calls on byte strings. -/

namespace Strongbox

@[simp] theorem ok_bind {ε α β : Type} (a : α) (f : α → Except ε β) :
    (Except.ok a >>= f) = f a := rfl

@[simp] theorem error_bind {ε α β : Type} (e : ε) (f : α → Except ε β) :
    ((Except.error e : Except ε α) >>= f) = .error e := rfl

@[simp] theorem pure_eq_ok {ε α : Type} (a : α) : (pure a : Except ε α) = .ok a := rfl

@[simp] theorem throw_eq_error {ε α : Type} (e : ε) : (throw e : Except ε α) = .error e := rfl

theorem map_eq_error_iff {ε α β : Type} {f : α → β} {x : Except ε α} {e : ε} :
    f <$> x = .error e ↔ x = .error e := by
  cases x <;> simp

theorem map_eq_ok_iff {ε α β : Type} {f : α → β} {x : Except ε α} {b : β} :
    x.map f = .ok b ↔ ∃ a, x = .ok a ∧ f a = b := by
  cases x <;> simp [Except.map]

/-- What is seen of the end of a run, beside its result, is there in some end of it. -/
theorem exists_of_map_eq_ok {ε α β γ : Type} {x : Except ε (α × β)} {f : β → γ} {a : α} {c : γ}
    (h : x.map (Prod.map id f) = .ok (a, c)) : ∃ b, x = .ok (a, b) ∧ f b = c := by
  obtain ⟨⟨a', b⟩, hx, hends⟩ := map_eq_ok_iff.mp h
  cases hends
  exact ⟨b, hx, rfl⟩

/-- The action ends in the session with this value. -/
def Action.Ends {σ α : Type} (act : Action σ α) (s : Session σ) (a : α) : Prop :=
  ∃ t, act.run s = .ok (a, t)

/-- An action ends with one value at most. -/
theorem Action.Ends.unique {σ α : Type} {act : Action σ α} {s : Session σ} {a b : α}
    (ha : act.Ends s a) (hb : act.Ends s b) : a = b := by
  obtain ⟨t, ht⟩ := ha
  obtain ⟨u, hu⟩ := hb
  rw [ht] at hu
  cases hu
  rfl

theorem Action.Ends.iff_eq {σ α : Type} {act : Action σ α} {s : Session σ} {a : α}
    (h : act.Ends s a) (b : α) : act.Ends s b ↔ b = a :=
  ⟨fun hb => hb.unique h, fun hb => hb ▸ h⟩

theorem Action.ends_iff_of_run {σ α : Type} {act : Action σ α} {s t : Session σ} {a b : α}
    (h : act.run s = .ok (a, t)) : act.Ends s b ↔ b = a :=
  ⟨fun hb => hb.unique ⟨t, h⟩, fun hb => ⟨t, hb ▸ h⟩⟩

/-- An action that is one step of the provider ends as that step does. -/
theorem Action.Ends.of_map {σ α ρ : Type} {act : Action σ α} {s : Session σ} {a : α}
    {x : Except Violation ρ} {f : ρ → α × Session σ} (h : act.Ends s a)
    (hrun : act.run s = f <$> x) : ∃ r, x = .ok r ∧ a = (f r).1 := by
  obtain ⟨t, ht⟩ := h
  rw [hrun] at ht
  cases x with
  | error v => simp at ht
  | ok r =>
      rw [Except.map_ok, Except.ok.injEq] at ht
      exact ⟨r, rfl, by rw [ht]⟩

/-- How a computation comes out: `Q` holds of its value, or `F` of what broke it off. -/
def Outcome {α : Type} (Q : α → Prop) (F : Violation → Prop) : Except Violation α → Prop
  | .ok a => Q a
  | .error v => F v

namespace Outcome

variable {α β : Type} {Q R : α → Prop} {F : Violation → Prop} {x : Except Violation α}

theorem of_eq_ok {a : α} (h : x = .ok a) (ha : Q a) : Outcome Q F x := by
  rw [h]
  exact ha

theorem of_ok {a : α} (h : Outcome Q F x) (hx : x = .ok a) : Q a := by
  rw [hx] at h
  exact h

/-- A computation comes out as what it is. -/
theorem self (x : Except Violation α) : Outcome (x = .ok ·) (x = .error ·) x := by
  cases x <;> rfl

theorem imp {G : Violation → Prop} (h : Outcome Q F x) (hQR : ∀ a, Q a → R a)
    (hFG : ∀ v, F v → G v) : Outcome R G x := by
  cases x with
  | error v => exact hFG v h
  | ok a => exact hQR a h

theorem map {f : α → β} {S : β → Prop} (h : Outcome Q F x) (hQS : ∀ a, Q a → S (f a)) :
    Outcome S F (f <$> x) := by
  cases x with
  | error v => exact h
  | ok a => exact hQS a h

/-- What is made of every value holds of a computation that may be broken off. -/
theorem of_eq_map {f : α → β} {S : β → Prop} {y : Except Violation β} (hy : y = f <$> x)
    (h : ∀ a, S (f a)) : Outcome S (fun _ => True) y := by
  rw [hy]
  cases x with
  | error v => trivial
  | ok a => exact h a

theorem bind {f : α → Except Violation β} {S : β → Prop} (h : Outcome Q F x)
    (hf : ∀ a, Q a → Outcome S F (f a)) : Outcome S F (x >>= f) := by
  cases x with
  | error v => exact h
  | ok a => exact hf a h

/-- What is known of a computation from two sides holds together. -/
theorem and {G : Violation → Prop} (h : Outcome Q F x) (h' : Outcome R G x) :
    Outcome (fun a => Q a ∧ R a) (fun v => F v ∧ G v) x := by
  cases x with
  | error v => exact ⟨h, h'⟩
  | ok a => exact ⟨h, h'⟩

/-- What nothing can break off ends. -/
theorem ends (h : Outcome Q (fun _ => False) x) : ∃ a, x = .ok a ∧ Q a := by
  cases x with
  | error v => exact h.elim
  | ok a => exact ⟨a, rfl, h⟩

end Outcome

/-- A call on a byte string of any length, with the bytes it leaves. -/
def InPlace.onBytes {σ α : Type} (step : {n : Nat} → InPlace σ n α) (buf : Bytes) :
    Step σ (Answer α × Bytes) := do
  let reply ← step (.ofList buf)
  return (reply.result, reply.buffer.toList)

theorem InPlace.run_onBytes {σ α : Type} (step : {n : Nat} → InPlace σ n α) (buf : Bytes)
    (p : σ) :
    (InPlace.onBytes step buf).run p =
      (fun r => ((r.1.result, r.1.buffer.toList), r.2)) <$> (step (.ofList buf)).run p := by
  simp only [InPlace.onBytes, StateT.run_bind, StateT.run_pure]
  cases (step (.ofList buf)).run p <;> rfl

/-- A call keeps the length of its buffer. -/
theorem InPlace.length_of_run_onBytes {σ α : Type} {step : {n : Nat} → InPlace σ n α}
    {buf bytes : Bytes} {answer : Answer α} {p q : σ}
    (h : (InPlace.onBytes step buf).run p = .ok ((answer, bytes), q)) :
    bytes.length = buf.length := by
  rw [InPlace.run_onBytes] at h
  cases hstep : (step (.ofList buf)).run p with
  | error v =>
      rw [hstep] at h
      cases h
  | ok r =>
      rw [hstep] at h
      cases h
      exact r.1.buffer.length_toList

/-- A call on a byte string comes out as the call on the buffer does. -/
theorem InPlace.outcome_onBytes_iff {σ α : Type} {step : {n : Nat} → InPlace σ n α} {buf : Bytes}
    {p : σ} {Q : (Answer α × Bytes) × σ → Prop} {F : Violation → Prop} :
    Outcome Q F ((InPlace.onBytes step buf).run p) ↔
      Outcome (fun r => Q ((r.1.result, r.1.buffer.toList), r.2)) F
        ((step (.ofList buf)).run p) := by
  rw [InPlace.run_onBytes]
  cases (step (.ofList buf)).run p <;> exact Iff.rfl

theorem Action.call_run {σ α : Type} (step : Step σ α) (s : Session σ) :
    (Action.call step).run s =
      (fun r => (r.1, { s with provider := r.2 })) <$> step.run s.provider :=
  Action.run_call step s

/-- An action that calls the provider and cannot go wrong afterwards is one step. -/
theorem Action.run_call_bind {σ α ρ : Type} {step : Step σ ρ} {after : ρ → Action σ α}
    {finish : ρ × σ → α × Session σ} {s : Session σ}
    (h : ∀ a q, (after a).run { s with provider := q } = .ok (finish (a, q))) :
    (Action.call step >>= after).run s = finish <$> step.run s.provider := by
  rw [StateT.run_bind, Action.call_run]
  cases step.run s.provider with
  | error v => rfl
  | ok r => exact h r.1 r.2

theorem Action.run_call_onBytes {σ α β : Type} (step : {n : Nat} → InPlace σ n α) {buf : Bytes}
    {after : Reply buf.length α → Action σ β}
    {finish : (Answer α × Bytes) × σ → β × Session σ} {s : Session σ}
    (h : ∀ reply q, (after reply).run { s with provider := q } =
      .ok (finish ((reply.result, reply.buffer.toList), q))) :
    (Action.call (step (.ofList buf)) >>= after).run s =
      finish <$> (InPlace.onBytes step buf).run s.provider := by
  rw [InPlace.run_onBytes, Functor.map_map]
  exact Action.run_call_bind h

end Strongbox
