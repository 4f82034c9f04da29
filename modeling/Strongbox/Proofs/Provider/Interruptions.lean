import Strongbox.Proofs.Guard.Interruptions
import Strongbox.Proofs.Provider.Hashing

/-! # Interrupted streams of the stand-in

The stand-in rejects a call on entry while its failures are switched on, before it looks at
the state of a hash. -/

namespace Strongbox

open Guard

namespace StandIn

/-- The stand-in with its failures switched on or off. -/
def State.switched (failing : Bool) (q : State) : State := { q with failing }

/-- A call on a buffer, whatever it would do, is rejected and leaves the buffer as it was. -/
theorem working_run_switched {n : Nat} {α : Type} (act : InPlace State n α) (buf : ByteVec n)
    (q : State) :
    (working act buf).run (q.switched true) =
      .ok (⟨.error {}, buf⟩, (q.switched true).counted) :=
  working_run_of_failing act buf rfl

theorem switches : Switches provider State.switched (fun q => q.failing = false) where
  ready_off _ := rfl
  init {q _} buf := by
    refine ⟨{}, buf, (q.switched true).counted, ?_⟩
    change (hashInit buf).run _ = _
    rw [hashInit, working_run_switched]
  update {q _} chunk buf := by
    refine ⟨{}, (q.switched true).counted, ?_⟩
    change (hashUpdate chunk buf).run _ = _
    rw [hashUpdate, working_run_switched]
  final {q _} buf := by
    refine ⟨{}, buf, (q.switched true).counted, ?_⟩
    change (hashFinal buf).run _ = _
    rw [hashFinal, working_run_switched]

end StandIn

/-- A stream of the stand-in neither loses nor repeats a chunk, whatever way failures are
switched on and off between its calls. Only accepted chunks count against the range of its
counter. -/
theorem stream_survives_failures (s t : Session StandIn.State) (state : Bytes)
    (feedings : List Feeding) (ht : t.provider.failing = false)
    (hstate : StandIn.provider.hashStateBytes ≤ state.length)
    (hfits : (admissible feedings).flatten.length < 2 ^ 64) :
    SurvivesFailures StandIn.provider StandIn.State.switched s t state feedings :=
  StandIn.switches.survivesFailures StandIn.hashes ht hstate hfits

/-- Two of four chunks come while failures are switched on, one of them the last. -/
theorem two_refused_chunks_left_out :
    ∃ updates,
      accepted updates = [[1], [4]] ∧
      (switchedStream StandIn.provider StandIn.State.switched (List.replicate 20 7) false
        [⟨false, [1]⟩, ⟨true, [2, 3]⟩, ⟨false, [4]⟩, ⟨true, [5]⟩] false).Ends
          ⟨{ failing := true }, []⟩
          ⟨.ok ⟨updates, .ok (StandIn.weakDigest [1, 4])⟩, Bytes.zeros 20⟩ := by
  obtain ⟨-, updates, digest, hanswers, hdigest, hfinished⟩ :=
    stream_survives_failures ⟨{ failing := true }, []⟩ ⟨{}, []⟩ (List.replicate 20 7)
      [⟨false, [1]⟩, ⟨true, [2, 3]⟩, ⟨false, [4]⟩, ⟨true, [5]⟩] rfl (by decide) (by decide)
  have haccepted : accepted updates = [[1], [4]] := accepted_eq_admissible hanswers
  rw [haccepted] at hdigest
  have hweak : digest = StandIn.weakDigest [1, 4] :=
    Except.ok.inj (hdigest.unique (StandIn.hashes.digest_ends rfl _))
  refine ⟨updates, haccepted, ?_⟩
  rw [← hweak]
  exact hfinished false

end Strongbox
