import Strongbox.Proofs.Guard.Reliable
import Strongbox.Proofs.Provider.Boxes
import Strongbox.Proofs.Provider.StandIn

/-! # The promises to a provider

Whatever a provider answers, a client's moves never make a call that breaks a promise. A
provider that relies on the promises alone is therefore safe in every run, as the
stand-in is, which looks at none of its lengths. -/

namespace Strongbox

open Guard

/-! ## Any provider -/

/-- The move on a provider with a tape. What changes the state from outside leaves the
tape alone. -/
def Guard.Move.taped {σ : Type} : Move σ → Move (σ × List Call)
  | .operation op single => .operation op single
  | .boxKeys => .boxKeys
  | .signingKeys => .signingKeys
  | .start state => .start state
  | .update slot chunk => .update slot chunk
  | .finish slot => .finish slot
  | .disturb change => .disturb fun q => (change q.1, q.2)

/-- The move put its call on the tape, where it made one, and no other. -/
def Guard.Round.Recorded {σ : Type} {P : Provider σ} (r : Round P.taped) : Prop :=
  r.after.session.provider.2 = r.before.session.provider.2 ++ (r.move.call? r.before).toList

theorem Guard.Move.tape_change {σ : Type} (m : Move σ) (q : σ × List Call) :
    (m.taped.change q).2 = q.2 := by
  cases m <;> rfl

namespace Provider

variable {σ : Type} (P : Provider σ)

theorem tape_of_play (c : Client P.taped) (m : Move σ) :
    Outcome (fun r => r.2.session.provider.2 =
        c.session.provider.2 ++ (m.taped.call? c).toList) (fun _ => True)
      (m.taped.play P.taped c) := by
  cases hcall : m.taped.call? c with
  | some call =>
      apply (Move.play_of_call hcall).imp
      · rintro r ⟨-, reply, hperform⟩
        exact P.tape_of_perform hperform
      · intro v _
        trivial
  | none =>
      simp only [Option.toList_none, List.append_nil]
      cases hdemands : unmet? (m.taped.demands P.taped.hashStateBytes) with
      | some d =>
          obtain ⟨after, hplay, hsession, -⟩ := Move.play_of_unmet (c := c) hdemands
          rw [hplay]
          exact congrArg (·.provider.2) hsession
      | none =>
          rw [Move.play_of_idle hdemands hcall]
          exact m.tape_change _

/-- By induction on the moves: nothing but allowed calls comes onto the tape. -/
theorem rounds_recorded (moves : List (Move σ)) {c : Client P.taped}
    (hc : ∀ call ∈ c.session.provider.2, call.Allowed P.hashStateBytes) :
    Outcome (fun rs => ∀ r ∈ rs, r.Recorded ∧
        ∀ call ∈ r.after.session.provider.2, call.Allowed P.hashStateBytes)
      (fun _ => True) (rounds P.taped (moves.map Move.taped) c) := by
  induction moves generalizing c with
  | nil => exact List.forall_mem_nil _
  | cons m moves ih =>
      apply (P.tape_of_play c m).bind
      intro r hr
      have hafter : ∀ call ∈ r.2.session.provider.2, call.Allowed P.hashStateBytes := by
        intro call hcall
        rw [hr] at hcall
        obtain hold | hnew := List.mem_append.mp hcall
        · exact hc call hold
        · exact Move.call?_allowed (P := P.taped) (Option.mem_toList.mp hnew)
      apply (ih hafter).bind
      intro rs hrs
      exact List.forall_mem_cons.mpr ⟨⟨hr, hafter⟩, hrs⟩

end Provider

/-! ## The stand-in -/

namespace StandIn

/-- Switched to fail, the stand-in leaves a buffer as it was. Only otherwise does a call
on a buffer have to be followed. -/
theorem outcome_onBytes {α : Type} (step : {n : Nat} → InPlace State n α) (buf : Bytes) {q : State}
    {Q : (Answer α × Bytes) × State → Prop} {F : Violation → Prop}
    (hfails : q.failing = true →
      (step (.ofList buf)).run q = .ok (⟨.error {}, .ofList buf⟩, q.counted))
    (hrejected : Q ((.error {}, buf), q.counted))
    (hready : q.failing = false → Outcome Q F ((InPlace.onBytes step buf).run q)) :
    Outcome Q F ((InPlace.onBytes step buf).run q) := by
  cases hfailing : q.failing with
  | false => exact hready hfailing
  | true =>
      rw [InPlace.outcome_onBytes_iff, hfails hfailing]
      exact hrejected

/-- The length that a stream's state counts is at most `n`. -/
def CountsAtMost (n : Nat) (state : Bytes) : Prop := (wordAt 8 (state.take 16)).toNat ≤ n

theorem countsAtMost_stateBytes {n : Nat} (h : UInt64) (back : Bytes) :
    CountsAtMost n (stateBytes h (UInt64.ofNat n) ++ back) := by
  rw [CountsAtMost, List.take_left' (length_stateBytes _ _), (wordAt_stateBytes _ _).2,
    UInt64.toNat_ofNat']
  exact Nat.mod_le _ _

theorem outcome_call {c : Call} {q : State} (hc : c.Allowed 16) (hplain : ¬ c.OnHashState) :
    Outcome (fun _ => True) (fun _ => False) ((provider.perform c).run q) := by
  cases c with
  | sealInPlace buf nonce key =>
      obtain ⟨-, hclean⟩ := hc
      apply outcome_onBytes (sealInPlace nonce key) buf (working_run_of_failing _ _) trivial
      intro hready
      have hrun := sealInPlace_run nonce key (buf.drop Size.padding) hready
      rw [← hclean, List.take_append_drop] at hrun
      exact .of_eq_ok hrun trivial
  | unsealInPlace buf nonce key =>
      have hlong : Size.padding ≤ buf.length := hc
      apply outcome_onBytes (unsealInPlace nonce key) buf (working_run_of_failing _ _) trivial
      intro hready
      have hrun := @unsealInPlace_run nonce key (buf.take Size.sealedPadding)
        (buf.drop Size.sealedPadding) q hready
        (by rw [List.length_take, Nat.min_eq_left (Nat.le_trans (by decide) hlong)])
        (by rw [List.length_drop]; exact Nat.sub_le_sub_right hlong Size.sealedPadding)
      rw [List.take_append_drop] at hrun
      exact .of_eq_ok hrun trivial
  | signInPlace buf secret =>
      have hlong : Size.signature ≤ buf.length := hc
      apply outcome_onBytes (signInPlace secret) buf (working_run_of_failing _ _) trivial
      intro hready
      have hrun := @signInPlace_run secret (buf.take Size.signature) (buf.drop Size.signature) q
        hready (by rw [List.length_take, Nat.min_eq_left hlong])
      rw [List.take_append_drop] at hrun
      exact .of_eq_ok hrun trivial
  | openSigned out signed pk =>
      obtain ⟨hout, hlong⟩ := hc
      apply outcome_onBytes (openSigned signed pk) out (working_run_of_failing _ _) trivial
      intro hready
      exact .of_eq_ok (openSigned_run pk hready hlong hout) trivial
  | hashInit state => exact absurd trivial hplain
  | hashUpdate state chunk => exact absurd trivial hplain
  | hashFinal state => exact absurd trivial hplain
  | _ => exact outcome_entering trivial trivial

theorem outcome_hashInit {state : Bytes} {q : State} (hlong : 16 ≤ state.length) :
    Outcome (fun r => r.1.1 = .ok () → CountsAtMost 0 r.1.2) (fun _ => False)
      ((InPlace.onBytes hashInit state).run q) := by
  apply outcome_onBytes hashInit state (working_run_of_failing _ _)
  · intro h
    cases h
  · intro hready
    obtain ⟨buf, hrun, hbytes⟩ := hashInit_run (.ofList state) hready hlong
    rw [InPlace.outcome_onBytes_iff, hrun]
    intro _
    change CountsAtMost 0 buf.toList
    rw [hbytes]
    exact countsAtMost_stateBytes _ _

theorem outcome_hashUpdate {n : Nat} {state chunk : Bytes} {q : State}
    (hlong : 16 ≤ state.length) (hcounts : CountsAtMost n state)
    (hfits : n + chunk.length < 2 ^ 64) :
    Outcome (fun r => CountsAtMost (n + chunk.length) r.1.2) (fun _ => False)
      ((InPlace.onBytes (hashUpdate chunk) state).run q) := by
  apply outcome_onBytes (hashUpdate chunk) state (working_run_of_failing _ _)
  · exact Nat.le_trans hcounts (Nat.le_add_right _ _)
  · intro hready
    have hcount := Nat.add_le_add_right hcounts chunk.length
    obtain ⟨buf, hrun, hbytes⟩ := @hashUpdate_run_of_count _ (.ofList state) chunk q hready hlong
      (Nat.lt_of_le_of_lt hcount hfits)
    rw [InPlace.outcome_onBytes_iff, hrun]
    change CountsAtMost _ buf.toList
    rw [hbytes]
    exact Nat.le_trans (countsAtMost_stateBytes _ _) hcount

theorem outcome_hashFinal {state : Bytes} {q : State} (hlong : 16 ≤ state.length) :
    Outcome (fun _ => True) (fun _ => False) ((InPlace.onBytes hashFinal state).run q) := by
  rw [InPlace.outcome_onBytes_iff]
  apply outcome_entering trivial
  simp only [parts_of_le hlong, pure_bind]
  trivial

/-- However its switches are turned, the stand-in answers every allowed call, as long as
no stream takes in more bytes than its state can count. -/
theorem reliable : Reliable provider (· < 2 ^ 64) CountsAtMost where
  fits_of_le hle hfits := Nat.lt_of_le_of_lt hle hfits
  fed_of_le hle hcounts := Nat.le_trans hcounts hle
  call _ hc hplain := outcome_call hc hplain
  init _ hlong := outcome_hashInit hlong
  update _ hlong hcounts hfits := outcome_hashUpdate hlong hcounts hfits
  final _ hlong _ := outcome_hashFinal hlong

end StandIn

/-! ## Whole runs -/

/-- However its switches are turned, a run on the stand-in comes to its end. -/
theorem StandIn.rounds_end {moves : List (Move StandIn.State)}
    (hfits : ∀ slot, fedTo slot moves < 2 ^ 64) (s : Session StandIn.State) :
    ∃ rs, rounds StandIn.provider moves ⟨s, []⟩ = .ok rs := by
  have hstart : Client.Kept StandIn.CountsAtMost (fun _ => 0) (⟨s, []⟩ : Client StandIn.provider) :=
    fun slot stream hopen => by simp [Client.stream?] at hopen
  have houtcome := StandIn.reliable.rounds_end hstart (by simpa using hfits)
  obtain ⟨rs, hrun, -⟩ := houtcome.ends
  exact ⟨rs, hrun⟩

/-- In every run, each move makes one call of the provider or none, all that any provider
gets are allowed calls, and a run breaks off only where the provider breaks off the call it
gets there. The stand-in never does, however its switches are turned, as long as no stream
takes in more bytes than its state can count. -/
theorem promises_kept :
    (∀ (σ : Type) (P : Provider σ) (moves : List (Move σ)) (q : σ) (events : List Event)
        (rs : List (Round P.taped)),
      rounds P.taped (moves.map Move.taped) ⟨⟨(q, []), events⟩, []⟩ = .ok rs →
        ∀ r ∈ rs, r.Recorded ∧
          ∀ call ∈ r.after.session.provider.2, call.Allowed P.hashStateBytes) ∧
    (∀ (σ : Type) (P : Provider σ) (moves : List (Move σ)) (s : Session σ) (v : Violation),
      rounds P moves ⟨s, []⟩ = .error v →
        ∃ earlier m later, moves = earlier ++ m :: later ∧ BreaksOffIn P ⟨s, []⟩ v earlier m) ∧
    (∀ (moves : List (Move StandIn.State)) (s : Session StandIn.State),
      (∀ slot, fedTo slot moves < 2 ^ 64) →
        ∃ rs, rounds StandIn.provider moves ⟨s, []⟩ = .ok rs) := by
  refine ⟨?_, ?_, ?_⟩
  · intro σ P moves q events rs hrun
    have houtcome := P.rounds_recorded moves (c := ⟨⟨(q, []), events⟩, []⟩) (List.forall_mem_nil _)
    rw [hrun] at houtcome
    exact houtcome
  · intro σ P moves s v hrun
    exact breaksOffIn_of_rounds_error hrun
  · intro moves s hfits
    exact StandIn.rounds_end hfits s

/-- A run on the stand-in: a box sealed over dirty padding, a stream that is fed, fails
once its switch is turned, and is ended. -/
def runWithFailure : List (Move StandIn.State) :=
  [.operation (.sealBoxInPlace (List.replicate 33 7) ⟨.zeros 24⟩ ⟨.zeros 32⟩) trivial,
    .start (Bytes.zeros 16), .update 0 [1, 2, 3], .disturb fun q => { q with failing := true },
    .update 0 [4], .finish 0]

/-- The stand-in with a digest that breaks off. -/
def overflowing : Provider StandIn.State :=
  { StandIn.provider with digest := fun _ => throw .counterOverflow }

theorem promises_kept_with_failure :
    (∃ rs, rounds StandIn.provider.taped (runWithFailure.map Move.taped) ⟨⟨({}, []), []⟩, []⟩ =
        .ok rs ∧
      (rs.map fun r => r.after.session.provider.2.length) = [1, 2, 3, 3, 4, 5] ∧
      ∀ r ∈ rs, r.Recorded ∧ ∀ call ∈ r.after.session.provider.2, call.Allowed 16) ∧
    (∃ earlier m later, [.boxKeys, .operation (.digest []) trivial] = earlier ++ m :: later ∧
      BreaksOffIn overflowing ⟨⟨{}, []⟩, []⟩ .counterOverflow earlier m) ∧
    ∃ rs, rounds StandIn.provider runWithFailure ⟨⟨{}, []⟩, []⟩ = .ok rs := by
  refine ⟨⟨_, rfl, rfl, ?_⟩, ?_, ?_⟩
  · exact promises_kept.1 _ StandIn.provider runWithFailure {} [] _ rfl
  · exact promises_kept.2.1 _ overflowing [.boxKeys, .operation (.digest []) trivial]
      ⟨{}, []⟩ _ rfl
  · apply promises_kept.2.2
    intro slot
    cases slot <;> simp [fedTo, Move.fedTo, runWithFailure]

end Strongbox
