import Strongbox.Proofs.Guard.Delegation

/-! # Clients

A client makes moves: single operations, and the calls on hash streams it has open, of
which there may be several at once. Between its moves something else may change the state
of the provider. A move is refused, or is one call of the provider, or does nothing. -/

namespace Strongbox.Guard

variable {σ : Type}

/-! ## Moves -/

inductive Move (σ : Type) where
  | operation (op : Operation) (single : op.IsSingle)
  | boxKeys
  | signingKeys
  /-- Takes the next slot, and opens a stream in it if the start succeeds. -/
  | start (state : Bytes)
  | update (slot : Nat) (chunk : Bytes)
  | finish (slot : Nat)
  /-- Not the client's own: the state of the provider changes, as when a switch is turned. -/
  | disturb (change : σ → σ)

/-- A session with the streams that were started in it. A slot is empty when its stream
never opened, and when it is finished. -/
structure Client (P : Provider σ) where
  session : Session σ
  slots : List (Option (HashStream P)) := []

namespace Client

variable {P : Provider σ}

def stream? (c : Client P) (slot : Nat) : Option (HashStream P) := (c.slots[slot]?).join

def inSession (c : Client P) (s : Session σ) : Client P := { c with session := s }

variable {c : Client P} {s : Session σ} {stream : HashStream P}

/-- An open stream was open before, or is the one just written. -/
theorem stream?_set {slot slot' : Nat} {new : Option (HashStream P)}
    (h : (⟨s, c.slots.set slot new⟩ : Client P).stream? slot' = some stream) :
    slot = slot' ∧ new = some stream ∨ c.stream? slot' = some stream := by
  simp only [stream?, List.getElem?_set] at h
  by_cases hslot : slot = slot'
  · rw [if_pos hslot] at h
    split at h
    · exact .inl ⟨hslot, h⟩
    · cases h
  · rw [if_neg hslot] at h
    exact .inr h

theorem stream?_append {slot : Nat} {new : Option (HashStream P)}
    (h : (⟨s, c.slots ++ [new]⟩ : Client P).stream? slot = some stream) :
    new = some stream ∨ c.stream? slot = some stream := by
  simp only [stream?] at h
  by_cases hslot : slot < c.slots.length
  · rw [List.getElem?_append_left hslot] at h
    exact .inr h
  · rw [List.getElem?_append_right (Nat.le_of_not_lt hslot), List.getElem?_singleton] at h
    split at h
    · exact .inl h
    · cases h

/-- An empty slot more leaves the streams as they are. -/
theorem stream?_append_none (slot : Nat) :
    (⟨s, c.slots ++ [none]⟩ : Client P).stream? slot = c.stream? slot := by
  simp only [stream?]
  by_cases hslot : slot < c.slots.length
  · rw [List.getElem?_append_left hslot]
  · rw [List.getElem?_append_right (Nat.le_of_not_lt hslot), List.getElem?_singleton,
      List.getElem?_eq_none (Nat.le_of_not_lt hslot)]
    split <;> rfl

end Client

namespace Move

/-- The demands of a move. Only single operations and the start of a stream make any. -/
def demands (least : Nat) : Move σ → List Demand
  | .operation op _ => op.demands least
  | .start state => [.hashState least state.length]
  | _ => []

/-- The buffer that the client hands over. -/
def buffer : Move σ → Bytes
  | .operation op _ => op.buffer
  | .start state => state
  | _ => []

/-- What a move does, and what the client sees of it. A move on an empty slot does nothing. -/
def play (P : Provider σ) (c : Client P) : Move σ → Except Violation (Report × Client P)
  | .operation op _ =>
    (fun r => (op.report r.1, c.inSession r.2)) <$> (op.run P).run c.session
  | .boxKeys =>
    (fun r => (.ofResult r.1, c.inSession r.2)) <$> (Guard.boxKeys P).run c.session
  | .signingKeys =>
    (fun r => (.ofResult r.1, c.inSession r.2)) <$> (Guard.signingKeys P).run c.session
  | .start state =>
    (fun r => (.ofWritten r.1, ⟨r.2, c.slots ++ [r.1.result.toOption]⟩)) <$>
      (HashStream.start P state).run c.session
  | .update slot chunk =>
    match c.stream? slot with
    | none => return ({}, c)
    | some stream =>
      (fun r => (⟨CryptoError.of? r.1.1, r.1.2.state⟩,
        ⟨r.2, c.slots.set slot (some r.1.2)⟩)) <$> (stream.update chunk).run c.session
  | .finish slot =>
    match c.stream? slot with
    | none => return ({}, c)
    | some stream =>
      (fun r => (.ofWritten r.1, ⟨r.2, c.slots.set slot none⟩)) <$> stream.finish.run c.session
  | .disturb change =>
    return ({}, c.inSession { c.session with provider := change c.session.provider })

/-- What a move that is not the client's own makes of the provider's state. -/
def change : Move σ → σ → σ
  | .disturb change => change
  | _ => id

/-- The call of the provider that a move makes, if it makes one. -/
def call? {P : Provider σ} (c : Client P) : Move σ → Option Call
  | .operation op _ => if unmet? (op.demands P.hashStateBytes) = none then some op.call else none
  | .boxKeys => some .boxKeys
  | .signingKeys => some .signingKeys
  | .start state =>
    if unmet? [.hashState P.hashStateBytes state.length] = none then some (.hashInit state)
    else none
  | .update slot chunk => (c.stream? slot).map fun stream => .hashUpdate stream.state chunk
  | .finish slot => (c.stream? slot).map fun stream => .hashFinal stream.state
  | .disturb _ => none

variable {P : Provider σ} {c : Client P} {m : Move σ}

/-- A client keeps every promise: an open stream has kept the room that it started with. -/
theorem call?_allowed {call : Call} (h : m.call? c = some call) :
    call.Allowed P.hashStateBytes := by
  cases m with
  | operation op single =>
      obtain ⟨hmet, hcall⟩ := Option.ite_none_right_eq_some.mp h
      cases hcall
      exact Operation.call_allowed hmet
  | start state =>
      obtain ⟨hmet, hcall⟩ := Option.ite_none_right_eq_some.mp h
      cases hcall
      exact unmet?_singleton_eq_none_iff.mp hmet
  | update slot chunk =>
      obtain ⟨stream, -, hcall⟩ := Option.map_eq_some_iff.mp h
      cases hcall
      exact stream.hashStateBytes_le
  | finish slot =>
      obtain ⟨stream, -, hcall⟩ := Option.map_eq_some_iff.mp h
      cases hcall
      exact stream.hashStateBytes_le
  | boxKeys =>
      cases h
      trivial
  | signingKeys =>
      cases h
      trivial
  | disturb change => cases h

/-! ### The three ways a move can go -/

/-- A demand that is not met ends the move: nothing but the log changes. -/
theorem play_of_unmet {d : Demand} (h : unmet? (m.demands P.hashStateBytes) = some d) :
    ∃ after, m.play P c = .ok (⟨some d.refusal, m.buffer⟩, after) ∧
      after.session = { c.session with events := c.session.events ++ [d.event P.name] } ∧
      ∀ slot, after.stream? slot = c.stream? slot := by
  let refused : Session σ := { c.session with events := c.session.events ++ [d.event P.name] }
  cases m with
  | operation op single =>
      obtain ⟨v, hrun, hreport⟩ := Operation.run_of_unmet P h c.session
      refine ⟨c.inSession refused, ?_, rfl, fun _ => rfl⟩
      rw [play, hrun, Except.map_ok, hreport]
      rfl
  | start state =>
      obtain ⟨hunmet, rfl⟩ := unmet?_singleton_eq_some_iff.mp h
      refine ⟨⟨refused, c.slots ++ [none]⟩, ?_, rfl, Client.stream?_append_none⟩
      rw [play, HashStream.start_run_of_small P c.session (Nat.lt_of_not_le hunmet)]
      rfl
  | _ => cases h

/-- A move that makes a call leaves the provider as the call does, and reports no error but
a failure. It breaks off only if the call does. -/
theorem play_of_call {call : Call} (h : m.call? c = some call) :
    Outcome (fun r => (∀ e, r.1.error = some e → e = .failure) ∧
        ∃ reply, (P.perform call).run c.session.provider = .ok (reply, r.2.session.provider))
      (fun v => (P.perform call).run c.session.provider = .error v) (m.play P c) := by
  have hself := Outcome.self ((P.perform call).run c.session.provider)
  cases m with
  | operation op single =>
      obtain ⟨hmet, hcall⟩ := Option.ite_none_right_eq_some.mp h
      cases hcall
      obtain ⟨finish, hrun, hsettles⟩ := Operation.run_of_met P single hmet c.session
      rw [play, hrun, Functor.map_map]
      apply hself.map
      intro r hr
      refine ⟨hsettles.failure_of_error r, r.1, ?_⟩
      change _ = Except.ok (r.1, (finish r).2.provider)
      rw [hsettles.provider_eq]
      exact hr
  | boxKeys =>
      cases h
      rw [play, boxKeys_run, Functor.map_map]
      exact hself.map fun r hr => ⟨fun _ => failure_of_reported, r.1, hr⟩
  | signingKeys =>
      cases h
      rw [play, signingKeys_run, Functor.map_map]
      exact hself.map fun r hr => ⟨fun _ => failure_of_reported, r.1, hr⟩
  | start state =>
      obtain ⟨hmet, hcall⟩ := Option.ite_none_right_eq_some.mp h
      cases hcall
      have hroom := unmet?_singleton_eq_none_iff.mp hmet
      rw [play, HashStream.start_run P c.session hroom, Functor.map_map]
      apply (InPlace.outcome_onBytes_iff.mp hself).map
      rintro ⟨⟨answer, buf⟩, q⟩ hr
      cases answer with
      | ok u => exact ⟨nofun, _, hr⟩
      | error _ => exact ⟨fun e he => (Option.some.inj he).symm, _, hr⟩
  | update slot chunk =>
      obtain ⟨stream, hstream, hcall⟩ := Option.map_eq_some_iff.mp h
      cases hcall
      have hbytes : Outcome _ _
          ((InPlace.onBytes (P.hashUpdate chunk) stream.state).run c.session.provider) := hself
      simp only [play, hstream, HashStream.update_run, Functor.map_map]
      exact (InPlace.outcome_onBytes_iff.mp hbytes).map fun r hr =>
        ⟨fun _ => failure_of_reported, _, hr⟩
  | finish slot =>
      obtain ⟨stream, hstream, hcall⟩ := Option.map_eq_some_iff.mp h
      cases hcall
      simp only [play, hstream, HashStream.finish_run, Functor.map_map]
      exact (InPlace.outcome_onBytes_iff.mp hself).map fun r hr =>
        ⟨fun _ => failure_of_reported, _, hr⟩
  | disturb change => cases h

/-- A move with no demand to refuse it and no call has nothing to report. -/
theorem play_of_idle (hmet : unmet? (m.demands P.hashStateBytes) = none)
    (hidle : m.call? c = none) :
    m.play P c = .ok ({}, c.inSession
      { c.session with provider := m.change c.session.provider }) := by
  cases m with
  | operation op single =>
      change unmet? (op.demands P.hashStateBytes) = none at hmet
      rw [call?, if_pos hmet] at hidle
      cases hidle
  | start state =>
      change unmet? [.hashState P.hashStateBytes state.length] = none at hmet
      rw [call?, if_pos hmet] at hidle
      cases hidle
  | boxKeys => cases hidle
  | signingKeys => cases hidle
  | update slot chunk =>
      rw [play, Option.map_eq_none_iff.mp hidle]
      rfl
  | finish slot =>
      rw [play, Option.map_eq_none_iff.mp hidle]
      rfl
  | disturb change => rfl

/-- Only the provider breaks off a move. -/
theorem call?_of_play_error {v : Violation} (h : m.play P c = .error v) :
    ∃ call, m.call? c = some call ∧ (P.perform call).run c.session.provider = .error v := by
  cases hcall : m.call? c with
  | some call =>
      have houtcome := play_of_call hcall
      rw [h] at houtcome
      exact ⟨call, rfl, houtcome⟩
  | none =>
      cases hdemands : unmet? (m.demands P.hashStateBytes) with
      | some d =>
          obtain ⟨after, hplay, -⟩ := play_of_unmet (c := c) hdemands
          rw [hplay] at h
          cases h
      | none =>
          rw [play_of_idle hdemands hcall] at h
          cases h

end Move

/-- A move that was made, with the client before and after it. -/
structure Round (P : Provider σ) where
  move : Move σ
  before : Client P
  report : Report
  after : Client P

/-- The rounds of a run of moves. -/
def rounds (P : Provider σ) : List (Move σ) → Client P → Except Violation (List (Round P))
  | [], _ => return []
  | move :: moves, before => do
    let (report, after) ← move.play P before
    let later ← rounds P moves after
    return ⟨move, before, report, after⟩ :: later

theorem rounds_cons_of_play {P : Provider σ} {m : Move σ} (moves : List (Move σ)) {c : Client P}
    {r : Report × Client P} (h : m.play P c = .ok r) :
    rounds P (m :: moves) c = (⟨m, c, r.1, r.2⟩ :: ·) <$> rounds P moves r.2 := by
  obtain ⟨report, after⟩ := r
  simp only [rounds, h, ok_bind]
  cases rounds P moves after <;> rfl

/-- The client after the rounds of a run, where it was `c` before them. -/
def clientAfter {P : Provider σ} (c : Client P) (rs : List (Round P)) : Client P :=
  (rs.map Round.after).getLastD c

/-- The moves break off in `m`: those before it come to their end, and the provider breaks
off, with `v`, the allowed call that `m` makes then. -/
def BreaksOffIn (P : Provider σ) (c : Client P) (v : Violation) (earlier : List (Move σ))
    (m : Move σ) : Prop :=
  ∃ rs call, rounds P earlier c = .ok rs ∧ m.call? (clientAfter c rs) = some call ∧
    call.Allowed P.hashStateBytes ∧
    (P.perform call).run (clientAfter c rs).session.provider = .error v

/-- A run that breaks off does so in a move, by the provider's own doing. -/
theorem breaksOffIn_of_rounds_error {P : Provider σ} {moves : List (Move σ)} {c : Client P}
    {v : Violation} (h : rounds P moves c = .error v) :
    ∃ earlier m later, moves = earlier ++ m :: later ∧ BreaksOffIn P c v earlier m := by
  induction moves generalizing c with
  | nil => cases h
  | cons m moves ih =>
      cases hplay : m.play P c with
      | error w =>
          rw [rounds, hplay] at h
          cases h
          obtain ⟨call, hcall, hrun⟩ := Move.call?_of_play_error hplay
          exact ⟨[], m, moves, rfl, [], call, rfl, hcall, Move.call?_allowed hcall, hrun⟩
      | ok r =>
          rw [rounds_cons_of_play moves hplay, map_eq_error_iff] at h
          obtain ⟨earlier, m', later, hmoves, rs, call, hrs, hcall⟩ := ih h
          refine ⟨m :: earlier, m', later, ?_, ⟨m, c, r.1, r.2⟩ :: rs, call, ?_, ?_⟩
          · rw [hmoves, List.cons_append]
          · rw [rounds_cons_of_play earlier hplay, hrs, Except.map_ok]
          · rw [clientAfter, List.map_cons, List.getLastD_cons]
            exact hcall

end Strongbox.Guard
