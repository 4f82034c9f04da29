import Strongbox.Proofs.Guard.Client

/-! # Reliable providers

A provider that answers callers who keep their promises answers every client: one lemma
for each kind of move, and an induction on the moves. -/

namespace Strongbox.Guard

variable {σ : Type}

/-- A provider that never breaks off while its callers keep their promises and no stream
takes in more bytes than fit. The state of a stream that took in at most `n` bytes is in
`Fed n`. -/
structure Reliable (P : Provider σ) (fits : Nat → Prop) (Fed : Nat → Bytes → Prop) : Prop where
  fits_of_le : ∀ {m n : Nat}, m ≤ n → fits n → fits m
  fed_of_le : ∀ {m n : Nat} {state : Bytes}, m ≤ n → Fed m state → Fed n state
  call : ∀ {c : Call} (q : σ), c.Allowed P.hashStateBytes → ¬ c.OnHashState →
    Outcome (fun _ => True) (fun _ => False) ((P.perform c).run q)
  init : ∀ {state : Bytes} (q : σ), P.hashStateBytes ≤ state.length →
    Outcome (fun r => r.1.1 = .ok () → Fed 0 r.1.2) (fun _ => False)
      ((P.perform (.hashInit state)).run q)
  update : ∀ {n : Nat} {state chunk : Bytes} (q : σ), P.hashStateBytes ≤ state.length →
    Fed n state → fits (n + chunk.length) →
    Outcome (fun r => Fed (n + chunk.length) r.1.2) (fun _ => False)
      ((P.perform (.hashUpdate state chunk)).run q)
  final : ∀ {n : Nat} {state : Bytes} (q : σ), P.hashStateBytes ≤ state.length → Fed n state →
    Outcome (fun _ => True) (fun _ => False) ((P.perform (.hashFinal state)).run q)

/-- The bytes that a move feeds to the stream in a slot. -/
def Move.fedTo (slot : Nat) : Move σ → Nat
  | .update slot' chunk => if slot' = slot then chunk.length else 0
  | _ => 0

def fedTo (slot : Nat) : List (Move σ) → Nat
  | [] => 0
  | m :: moves => m.fedTo slot + fedTo slot moves

/-- Every open stream is in a state it can have after the bytes that were fed to it. -/
def Client.Kept {P : Provider σ} (Fed : Nat → Bytes → Prop) (fed : Nat → Nat) (c : Client P) :
    Prop :=
  ∀ slot stream, c.stream? slot = some stream → Fed (fed slot) stream.state

namespace Reliable

variable {P : Provider σ} {fits : Nat → Prop} {Fed : Nat → Bytes → Prop} {fed : Nat → Nat}
  {c : Client P}

theorem play_operation (h : Reliable P fits Fed) (hc : c.Kept Fed fed) (op : Operation)
    (single : op.IsSingle) :
    Outcome (fun r => r.2.Kept Fed fed) (fun _ => False)
      ((Move.operation op single).play P c) := by
  simp only [Move.play]
  cases hdemands : unmet? (op.demands P.hashStateBytes) with
  | some d =>
      obtain ⟨v, hrun, -⟩ := Operation.run_of_unmet P hdemands c.session
      rw [hrun]
      exact hc
  | none =>
      obtain ⟨finish, hrun, -⟩ := Operation.run_of_met P single hdemands c.session
      have hcall := h.call c.session.provider (Operation.call_allowed hdemands)
        (Operation.call_not_onHashState single)
      rw [hrun, Functor.map_map]
      exact hcall.map fun _ _ => hc

theorem play_start (h : Reliable P fits Fed) (hc : c.Kept Fed fed) (state : Bytes) :
    Outcome (fun r => r.2.Kept Fed fed) (fun _ => False) ((Move.start state).play P c) := by
  simp only [Move.play]
  by_cases hsmall : state.length < P.hashStateBytes
  · rw [HashStream.start_run_of_small P c.session hsmall]
    intro slot stream hopen
    obtain hnew | hold := Client.stream?_append hopen
    · cases hnew
    · exact hc slot stream hold
  · have hroom := Nat.le_of_not_lt hsmall
    have hinit := InPlace.outcome_onBytes_iff.mp (h.init c.session.provider hroom)
    rw [HashStream.start_run P c.session hroom, Functor.map_map]
    apply hinit.map
    rintro ⟨⟨answer, buf⟩, q⟩ hfed
    cases answer with
    | error e =>
        intro slot stream hopen
        obtain hnew | hold := Client.stream?_append hopen
        · cases hnew
        · exact hc slot stream hold
    | ok u =>
        intro slot stream hopen
        obtain hnew | hold := Client.stream?_append hopen
        · obtain rfl := Option.some.inj hnew
          exact h.fed_of_le (Nat.zero_le _) (hfed rfl)
        · exact hc slot stream hold

theorem play_update (h : Reliable P fits Fed) (hc : c.Kept Fed fed) (slot : Nat)
    (chunk : Bytes) (hfits : fits (fed slot + chunk.length)) :
    Outcome (fun r => r.2.Kept Fed fun slot' =>
        fed slot' + if slot = slot' then chunk.length else 0) (fun _ => False)
      ((Move.update slot chunk).play P c) := by
  have hold : c.Kept Fed fun slot' => fed slot' + if slot = slot' then chunk.length else 0 := by
    intro slot' stream hopen
    exact h.fed_of_le (Nat.le_add_right _ _) (hc slot' stream hopen)
  simp only [Move.play]
  cases hstream : c.stream? slot with
  | none => exact hold
  | some stream =>
      have hbytes : Outcome (fun r => Fed (fed slot + chunk.length) r.1.2) (fun _ => False)
          ((InPlace.onBytes (P.hashUpdate chunk) stream.state).run c.session.provider) :=
        h.update _ stream.hashStateBytes_le (hc slot stream hstream) hfits
      have hupdate := InPlace.outcome_onBytes_iff.mp hbytes
      simp only [HashStream.update_run, Functor.map_map]
      apply hupdate.map
      rintro ⟨⟨answer, buf⟩, q⟩ hfed slot' stream' hopen
      -- Only the stream that took the chunk is in a new state.
      obtain ⟨rfl, hnew⟩ | hbefore := Client.stream?_set hopen
      · obtain rfl := Option.some.inj hnew
        simp only [ite_true]
        exact hfed
      · exact hold slot' stream' hbefore

theorem play_finish (h : Reliable P fits Fed) (hc : c.Kept Fed fed) (slot : Nat) :
    Outcome (fun r => r.2.Kept Fed fed) (fun _ => False) ((Move.finish slot).play P c) := by
  simp only [Move.play]
  cases hstream : c.stream? slot with
  | none => exact hc
  | some stream =>
      have hfinal := InPlace.outcome_onBytes_iff.mp
        (h.final c.session.provider stream.hashStateBytes_le (hc slot stream hstream))
      simp only [HashStream.finish_run, Functor.map_map]
      apply hfinal.map
      rintro ⟨⟨answer, buf⟩, q⟩ - slot' stream' hopen
      obtain ⟨-, hnew⟩ | hbefore := Client.stream?_set hopen
      · cases hnew
      · exact hc slot' stream' hbefore

/-- A move comes to its end, and feeds a stream what it says. -/
theorem play (h : Reliable P fits Fed) (hc : c.Kept Fed fed) {m : Move σ}
    (hfits : ∀ slot, fits (fed slot + m.fedTo slot)) :
    Outcome (fun r => r.2.Kept Fed fun slot => fed slot + m.fedTo slot) (fun _ => False)
      (m.play P c) := by
  cases m with
  | operation op single => exact h.play_operation hc op single
  | boxKeys =>
      have hcall := h.call (c := .boxKeys) c.session.provider trivial not_false
      simp only [Move.play, boxKeys_run, Functor.map_map]
      exact hcall.map fun _ _ => hc
  | signingKeys =>
      have hcall := h.call (c := .signingKeys) c.session.provider trivial not_false
      simp only [Move.play, signingKeys_run, Functor.map_map]
      exact hcall.map fun _ _ => hc
  | start state => exact h.play_start hc state
  | update slot chunk =>
      have hhere := hfits slot
      simp only [Move.fedTo, ite_true] at hhere
      exact h.play_update hc slot chunk hhere
  | finish slot => exact h.play_finish hc slot
  | disturb change => exact hc

/-- By induction on the moves: the bytes of each stream add up. -/
theorem rounds_end (h : Reliable P fits Fed) (hc : c.Kept Fed fed) {moves : List (Move σ)}
    (hfits : ∀ slot, fits (fed slot + fedTo slot moves)) :
    Outcome (fun _ => True) (fun _ => False) (rounds P moves c) := by
  induction moves generalizing c fed with
  | nil => trivial
  | cons m moves ih =>
      simp only [fedTo] at hfits
      have hfirst : ∀ slot, fits (fed slot + m.fedTo slot) := by
        intro slot
        exact h.fits_of_le (Nat.add_le_add_left (Nat.le_add_right _ _) _) (hfits slot)
      apply (h.play hc hfirst).bind
      intro r hr
      have hlater : ∀ slot, fits (fed slot + m.fedTo slot + fedTo slot moves) := by
        intro slot
        rw [Nat.add_assoc]
        exact hfits slot
      exact (ih hr hlater).bind fun _ _ => trivial

end Reliable

end Strongbox.Guard
