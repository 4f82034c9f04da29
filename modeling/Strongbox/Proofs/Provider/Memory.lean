import Strongbox.Proofs.Guard.Memory
import Strongbox.Proofs.Provider.Promises
import Strongbox.Proofs.Provider.Reliable

/-! # The memory under a hash stream, with every provider

Each provider keeps its hash state at the front of the buffer it is given, so a stream never
disturbs its caller's memory, however the calls are answered. -/

namespace Strongbox

open Guard

namespace StandIn

theorem hashUpdate_overflows {n : Nat} {buf : ByteVec n} {chunk : Bytes} {q : State}
    (h : q.failing = false) (hlong : 16 ≤ n)
    (hcount : 2 ^ 64 ≤ (wordAt 8 (buf.toList.take 16)).toNat + chunk.length) :
    (hashUpdate chunk buf).run q = .error .counterOverflow := by
  have hover : Nat.pow 2 64 ≤ (wordAt 8 (buf.toList.take 16)).toNat + chunk.length := hcount
  rw [hashUpdate, working_run _ _ h, parts_of_le hlong]
  simp only [pure_bind, hover, ite_true]
  rfl

theorem hashFinal_run_of_le {n : Nat} {buf : ByteVec n} {q : State} (h : q.failing = false)
    (hlong : 16 ≤ n) :
    (hashFinal buf).run q =
      .ok (⟨.ok (spread (wordAt 0 (buf.toList.take 16)) (wordAt 8 (buf.toList.take 16))), buf⟩,
        q.counted) := by
  rw [hashFinal, working_run _ _ h, parts_of_le hlong]
  rfl

theorem writesInFront : WritesInFront provider where
  init {m} q buf hroom := by
    cases hfailing : q.failing with
    | true =>
        have hrun : (hashInit buf).run q = .ok (⟨.error {}, buf⟩, q.counted) := by
          rw [hashInit, working_run_of_failing _ _ hfailing]
        exact .of_eq_ok hrun rfl
    | false =>
        obtain ⟨buf', hrun, hbytes⟩ := hashInit_run buf hfailing hroom
        refine .of_eq_ok hrun ?_
        rw [hbytes]
        exact List.drop_left' (length_weakState [])
  update {m} q chunk buf hroom := by
    cases hfailing : q.failing with
    | true =>
        have hrun : (hashUpdate chunk buf).run q = .ok (⟨.error {}, buf⟩, q.counted) := by
          rw [hashUpdate, working_run_of_failing _ _ hfailing]
        exact .of_eq_ok hrun rfl
    | false =>
        rcases Nat.lt_or_ge ((wordAt 8 (buf.toList.take 16)).toNat + chunk.length) (2 ^ 64)
          with hcount | hcount
        · obtain ⟨buf', hrun, hbytes⟩ := hashUpdate_run_of_count hfailing hroom hcount
          refine .of_eq_ok hrun ?_
          rw [hbytes]
          exact List.drop_left' (length_stateBytes _ _)
        · have hrun : (provider.hashUpdate chunk buf).run q = .error .counterOverflow :=
            hashUpdate_overflows hfailing hroom hcount
          rw [hrun]
          rfl
  final {m} q buf hroom := by
    cases hfailing : q.failing with
    | true =>
        have hrun : (hashFinal buf).run q = .ok (⟨.error {}, buf⟩, q.counted) := by
          rw [hashFinal, working_run_of_failing _ _ hfailing]
        exact .of_eq_ok hrun trivial
    | false => exact .of_eq_ok (hashFinal_run_of_le hfailing hroom) trivial

end StandIn

namespace Split

variable (p : Primitives)

theorem drop_store {n : Nat} (buf : ByteVec n) (s : Sha512.Midstate) (h : Size.hashState ≤ n) :
    (store buf s).toList.drop Size.hashState = buf.toList.drop Size.hashState := by
  rw [toList_store buf s h, List.drop_left' s.toBytes.length_toList]

theorem load?_of_le {n : Nat} (buf : ByteVec n) (h : Size.hashState ≤ n) :
    load? buf = some (.ofBytes (buf.first Size.hashState h)) := by
  rw [load?, dif_pos h]

theorem writesInFront : WritesInFront (provider p) where
  init {m} q buf hroom := by
    have hlong : Size.hashState ≤ m := hroom
    exact .of_eq_ok (hashInit_run buf q hlong) (drop_store buf .initial hlong)
  update {m} q chunk buf hroom := by
    have hlong : Size.hashState ≤ m := hroom
    have hload := load?_of_le buf hlong
    rcases Nat.lt_or_ge ((Sha512.Midstate.ofBytes (buf.first Size.hashState hlong)).count.toNat +
      chunk.length) (2 ^ 128) with hcount | hcount
    · refine .of_eq_ok (hashUpdate_run p chunk q hload hcount) ?_
      change List.drop Size.hashState _ = List.drop Size.hashState _
      exact drop_store buf _ hlong
    · have hrun : ((provider p).hashUpdate chunk buf).run q = .error .counterOverflow :=
        hashUpdate_overflows p chunk q hload hcount
      rw [hrun]
      rfl
  final {m} q buf hroom := by
    have hlong : Size.hashState ≤ m := hroom
    exact .of_eq_ok (hashFinal_run p q (load?_of_le buf hlong)) trivial

end Split

namespace Joined

variable (p : Primitives)

theorem drop_overwrite {n : Nat} (buf : ByteVec n) (front : ByteVec Size.hashState)
    (h : Size.hashState ≤ n) :
    (buf.overwrite 0 front.toList).toList.drop Size.hashState =
      buf.toList.drop Size.hashState := by
  rw [ByteVec.toList_overwrite_front buf front h, List.drop_left' front.length_toList]

theorem writesInFront : WritesInFront (provider p) where
  init {m} q buf hroom := by
    have hlong : Size.hashState ≤ m := hroom
    change Outcome _ _ ((hashInit buf).run q)
    rw [hashInit, if_neg (Nat.not_lt.mpr hlong)]
    exact drop_overwrite buf Sha512.Midstate.initial.toBitCountedBytes hlong
  update {m} q chunk buf hroom := by
    have hlong : Size.hashState ≤ m := hroom
    change Outcome _ _ ((hashUpdate p chunk buf).run q)
    rw [hashUpdate, dif_neg (Nat.not_lt.mpr hlong)]
    change List.drop Size.hashState _ = List.drop Size.hashState _
    exact drop_overwrite buf _ hlong
  final {m} q buf hroom := by
    have hlong : Size.hashState ≤ m := hroom
    change Outcome _ _ ((hashFinal p buf).run q)
    rw [hashFinal, dif_neg (Nat.not_lt.mpr hlong)]
    trivial

end Joined

/-- What holds of a stream in the caller's memory with one provider: it keeps the discipline
in every run that is not broken off, a counter out of its range is all that can break one off,
and none breaks off while what arrives `fits`. -/
structure Guard.Disciplines {σ : Type} (P : Provider σ) (fits : Nat → Prop) : Prop where
  kept : ∀ {n : Nat} (slice : Slice n) (memory : ByteVec n) (first : σ → σ)
    (arrivals : List (Arrival σ)) (last : Option (σ → σ)) (s : Session σ),
    Outcome (fun r => r.1.Disciplined P.hashStateBytes slice memory arrivals.length last.isSome)
      (· = .counterOverflow) ((lifeIn P slice memory first arrivals last).run s)
  ends : ∀ {n : Nat} (slice : Slice n) (memory : ByteVec n) (first : σ → σ)
    (arrivals : List (Arrival σ)) (last : Option (σ → σ)) (s : Session σ),
    fits (arriving arrivals) → ∃ life, (lifeIn P slice memory first arrivals last).Ends s life

theorem Guard.WritesInFront.disciplines {σ : Type} {P : Provider σ} {fits : Nat → Prop}
    {Fed : Nat → Bytes → Prop} (h : WritesInFront P) (hreliable : Reliable P fits Fed) :
    Disciplines P fits where
  kept slice memory first arrivals last s :=
    h.steady.lifeIn slice memory first arrivals last s trivial
  ends slice memory first arrivals last s hfits := by
    obtain ⟨r, hrun, -⟩ :=
      ((h.steady_of_reliable hreliable).lifeIn slice memory first arrivals last s hfits).ends
    exact ⟨r.1, r.2, hrun⟩

theorem Guard.Disciplines.disciplined_of_ends {σ : Type} {P : Provider σ} {fits : Nat → Prop}
    (h : Disciplines P fits) {n : Nat} {slice : Slice n} {memory : ByteVec n} {first : σ → σ}
    {arrivals : List (Arrival σ)} {last : Option (σ → σ)} {s : Session σ} {life : Life n}
    (hends : (lifeIn P slice memory first arrivals last).Ends s life) :
    life.Disciplined P.hashStateBytes slice memory arrivals.length last.isSome := by
  obtain ⟨t, hrun⟩ := hends
  exact (h.kept slice memory first arrivals last s).of_ok hrun

/-- With every provider, a hash stream changes nothing outside the slice that it is handed,
nothing behind its state while it is open, and leaves the slice wiped. The state of the
provider may change between the calls in any way. -/
theorem streams_keep_memory :
    Disciplines StandIn.provider (· < 2 ^ 64) ∧
    (∀ p, Disciplines (Split.provider p) (· < 2 ^ 128)) ∧
    (∀ p, Disciplines (Joined.provider p) fun _ => True) :=
  ⟨StandIn.writesInFront.disciplines StandIn.reliable,
    fun p => (Split.writesInFront p).disciplines (Split.reliable p),
    fun p => (Joined.writesInFront p).disciplines (Joined.reliable p)⟩

/-- A slice in the middle of a memory, with an update and the end failing. -/
theorem failing_steps_keep_memory :
    ∃ life, (lifeIn StandIn.provider ⟨3, 20, by decide⟩ (ByteVec.replicate 30 0xaa) id
        [⟨id, [1]⟩, ⟨fun q => { q with failing := true }, [2, 3]⟩] (some id)).Ends ⟨{}, []⟩ life ∧
      life.started.answer = .ok () ∧
      life.updates.map Snapshot.answer = [.ok (), .error .failure] ∧
      life.finished.map Snapshot.answer = some (.error .failure) ∧
      life.Disciplined 16 ⟨3, 20, by decide⟩ (ByteVec.replicate 30 0xaa) 2 true := by
  obtain ⟨life, hends⟩ := streams_keep_memory.1.ends ⟨3, 20, by decide⟩
    (ByteVec.replicate 30 0xaa) id [⟨id, [1]⟩, ⟨fun q => { q with failing := true }, [2, 3]⟩]
    (some id) ⟨{}, []⟩ (by decide)
  have hdisciplined := streams_keep_memory.1.disciplined_of_ends hends
  obtain ⟨t, hrun⟩ := id hends
  refine ⟨life, hends, ?_, ?_, ?_, hdisciplined⟩ <;> cases hrun <;> rfl

end Strongbox
