import Strongbox.Proofs.Provider.Promises

/-! # Refusals

A capacity error stands for the first demand that is not met, where the caller declared
the length. Whichever demand it is, the move then changes nothing but the log, by one
entry. -/

namespace Strongbox.Guard

variable {σ : Type}

namespace Round

variable {P : Provider σ} {r : Round P} {d : Demand}

/-- The move was refused because of a demand: it reports an error and leaves the buffer, the
provider and the streams as they were. The log has one more entry. -/
structure RefusedBy (r : Round P) (d : Demand) : Prop where
  report_eq : r.report = ⟨some d.refusal, r.move.buffer⟩
  provider_eq : r.after.session.provider = r.before.session.provider
  stream?_eq : ∀ slot, r.after.stream? slot = r.before.stream? slot
  logged : ∃ e, r.after.session.events = r.before.session.events ++ [e] ∧ e.level = .debug ∧
    (d.declared = true →
      ("required", .number d.required) ∈ e.fields ∧ ("actual", .number d.actual) ∈ e.fields)

/-- The move reports a capacity error exactly if the first demand that is not met is about
a declared length, with the numbers of that demand, and is refused because of whichever
demand comes first. -/
structure RefusesExactly (r : Round P) : Prop where
  capacity_iff : ∀ required actual, r.report.error = some (.capacity required actual) ↔
    ∃ d, unmet? (r.move.demands P.hashStateBytes) = some d ∧
      d.declared = true ∧ d.required = required ∧ d.actual = actual
  refused : ∀ d, unmet? (r.move.demands P.hashStateBytes) = some d → r.RefusedBy d

theorem refusesExactly_of_unmet (h : unmet? (r.move.demands P.hashStateBytes) = some d)
    (hrefused : r.RefusedBy d) : r.RefusesExactly where
  capacity_iff required actual := by
    rw [hrefused.report_eq, Option.some.injEq, Demand.refusal_eq_capacity_iff]
    constructor
    · intro hd
      exact ⟨d, h, hd⟩
    · rintro ⟨e, he, hd⟩
      rw [h, Option.some.injEq] at he
      rwa [he]
  refused e he := by
    rw [h, Option.some.injEq] at he
    rwa [← he]

theorem refusesExactly_of_met (h : unmet? (r.move.demands P.hashStateBytes) = none)
    (hfailure : ∀ e, r.report.error = some e → e = .failure) : r.RefusesExactly where
  capacity_iff required actual := by
    constructor
    · intro he
      cases hfailure _ he
    · rintro ⟨d, hd, -⟩
      rw [h] at hd
      cases hd
  refused d hd := by
    rw [h] at hd
    cases hd

theorem logged_event (provider : String) (d : Demand) {log : List Event} :
    ∃ e, log ++ [d.event provider] = log ++ [e] ∧ e.level = .debug ∧
      (d.declared = true →
        ("required", .number d.required) ∈ e.fields ∧ ("actual", .number d.actual) ∈ e.fields) :=
  ⟨_, rfl, d.level_event provider, d.fields_event provider⟩

end Round

/-! ## Every move and every run -/

theorem play_refusesExactly (P : Provider σ) (c : Client P) (m : Move σ) :
    Outcome (fun r => Round.RefusesExactly ⟨m, c, r.1, r.2⟩) (fun _ => True) (m.play P c) := by
  cases hdemands : unmet? (m.demands P.hashStateBytes) with
  | some d =>
      obtain ⟨after, hplay, hsession, hstreams⟩ := Move.play_of_unmet (c := c) hdemands
      rw [hplay]
      exact Round.refusesExactly_of_unmet hdemands
        ⟨rfl, by rw [hsession], hstreams, by rw [hsession]; exact Round.logged_event P.name d⟩
  | none =>
      cases hcall : m.call? c with
      | some call =>
          apply (Move.play_of_call hcall).imp
          · rintro r ⟨hfailure, -⟩
            exact Round.refusesExactly_of_met hdemands hfailure
          · intro v _
            trivial
      | none =>
          rw [Move.play_of_idle hdemands hcall]
          exact Round.refusesExactly_of_met hdemands fun _ he => by cases he

/-- By induction on the moves. Nothing has to be known of the client between them. -/
theorem rounds_refuseExactly (P : Provider σ) (moves : List (Move σ)) (c : Client P) :
    Outcome (fun rs => ∀ r ∈ rs, r.RefusesExactly) (fun _ => True) (rounds P moves c) := by
  induction moves generalizing c with
  | nil => exact List.forall_mem_nil _
  | cons m moves ih =>
      apply (play_refusesExactly P c m).bind
      intro r hr
      apply (ih r.2).bind
      intro rs hrs
      exact List.forall_mem_cons.mpr ⟨hr, hrs⟩

/-- In every run with any provider, capacity errors are exact and a refusal changes
nothing but the log. The runs on the stand-in come to their end, however its switches are
turned, as long as no stream takes in more bytes than its state can count. -/
theorem refusals_exact :
    (∀ (σ : Type) (P : Provider σ) (moves : List (Move σ)) (c : Client P) (rs : List (Round P)),
      rounds P moves c = .ok rs → ∀ r ∈ rs, r.RefusesExactly) ∧
    (∀ (moves : List (Move StandIn.State)) (s : Session StandIn.State),
      (∀ slot, fedTo slot moves < 2 ^ 64) →
        ∃ rs, rounds StandIn.provider moves ⟨s, []⟩ = .ok rs ∧ ∀ r ∈ rs, r.RefusesExactly) := by
  have hrounds : ∀ (σ : Type) (P : Provider σ) (moves : List (Move σ)) (c : Client P)
      (rs : List (Round P)), rounds P moves c = .ok rs → ∀ r ∈ rs, r.RefusesExactly := by
    intro σ P moves c rs hrun
    have houtcome := rounds_refuseExactly P moves c
    rw [hrun] at houtcome
    exact houtcome
  refine ⟨hrounds, ?_⟩
  intro moves s hfits
  obtain ⟨rs, hrun⟩ := StandIn.rounds_end hfits s
  exact ⟨rs, hrun, hrounds _ _ _ _ _ hrun⟩

/-- Moves with demands that are not met, two of them with both. -/
def refusedMoves : List (Move StandIn.State) :=
  [.operation (.sealBox [1, 2] [3, 4, 5] ⟨.zeros 24⟩ ⟨.zeros 32⟩) trivial,
    .operation (.unsealBox [1, 2] (Bytes.zeros 33) ⟨.zeros 24⟩ ⟨.zeros 32⟩) trivial,
    .operation (.unsealBoxInPlace [1, 2] ⟨.zeros 24⟩ ⟨.zeros 32⟩) trivial,
    .disturb fun q => { q with failing := true },
    .operation (.openSigned [1] [2, 3] ⟨.zeros 32⟩) trivial,
    .start [1, 2, 3]]

theorem refusedMoves_exact :
    (∃ rs, rounds StandIn.provider refusedMoves ⟨⟨{}, []⟩, []⟩ = .ok rs ∧
      (rs.map fun r => r.report.error) = [some (.capacity 32 3), some (.capacity 33 2),
        some .failure, none, some (.capacity 2 1), some (.capacity 16 3)] ∧
      ∀ r ∈ rs, r.RefusesExactly) ∧
    ∃ rs, rounds StandIn.provider refusedMoves ⟨⟨{}, []⟩, []⟩ = .ok rs ∧
      ∀ r ∈ rs, r.RefusesExactly := by
  constructor
  · exact ⟨_, rfl, rfl, refusals_exact.1 _ StandIn.provider refusedMoves ⟨⟨{}, []⟩, []⟩ _ rfl⟩
  · apply refusals_exact.2
    intro slot
    simp [fedTo, Move.fedTo, refusedMoves]

end Strongbox.Guard
