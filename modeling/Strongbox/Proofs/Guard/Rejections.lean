import Strongbox.Proofs.Guard.Delegation
import Strongbox.Proofs.Provider.StandIn

/-! # Rejections

When a provider rejects a box or a signed string, or misreports what it opened, the
outcome is fixed by the operation and the provider's name. Nothing the provider wrote is
in it. -/

namespace Strongbox.Guard

namespace Operation

/-- The operations that wipe all they worked on when the provider rejects. -/
def Wipes : Operation → Prop
  | .sealBox _ _ _ _ => True
  | .sealBoxInPlace _ _ _ => True
  | .unsealBox _ _ _ _ => True
  | .unsealBoxInPlace _ _ _ => True
  | .openSigned _ _ _ => True
  | _ => False

/-- A reply to one of these that is no success: an error, or a length that is not the
message's. -/
def Rejected : (op : Operation) → op.call.Reply → Prop
  | .sealBox _ _ _ _, reply => reply.1 ≠ .ok ()
  | .sealBoxInPlace _ _ _, reply => reply.1 ≠ .ok ()
  | .unsealBox _ _ _ _, reply => reply.1 ≠ .ok ()
  | .unsealBoxInPlace _ _ _, reply => reply.1 ≠ .ok ()
  | .openSigned _ signed _, reply => reply.1.toOption ≠ some (signed.length - Size.signature)
  | _, _ => False

/-- How much of the buffer, from its start, the provider works on. -/
def reach : Operation → Nat
  | .sealBox _ padded _ _ => padded.length
  | .sealBoxInPlace buf _ _ => buf.length
  | .unsealBox _ boxed _ _ => boxed.length
  | .unsealBoxInPlace buf _ _ => buf.length
  | .openSigned _ signed _ => signed.length
  | _ => 0

end Operation

variable {σ : Type}

/-! ## One rejected call -/

theorem run_settle_of_rejected {step : {n : Nat} → InPlace σ n Unit} {buf rest : Bytes}
    {length : Nat} {begun failed : Event} {act : Action σ (Written Unit)} {s : Session σ}
    {reply : Answer Unit × Bytes} {q : σ} (hlength : buf.length = length)
    (hrun : act.run s = settle () wipeAll rest begun failed s.events <$>
      (InPlace.onBytes step buf).run s.provider)
    (hreply : (InPlace.onBytes step buf).run s.provider = .ok (reply, q))
    (hrejected : reply.1 ≠ .ok ()) :
    act.run s = .ok (⟨.error .failure, Bytes.zeros length ++ rest⟩,
      ⟨q, s.events ++ [begun, failed]⟩) := by
  obtain ⟨answer, bytes⟩ := reply
  have hbytes := InPlace.length_of_run_onBytes hreply
  rw [hrun, hreply, Except.map_ok]
  cases answer with
  | ok u => exact absurd rfl hrejected
  | error e => rw [settle, wipeAll, hbytes, hlength]

theorem run_settleOpened_of_rejected {step : {n : Nat} → InPlace σ n Nat} {buf rest : Bytes}
    {length opened : Nat} {failed : Event} {act : Action σ (Written Nat)} {s : Session σ}
    {reply : Answer Nat × Bytes} {q : σ} (hlength : buf.length = length)
    (hrun : act.run s = settleOpened opened rest failed s.events <$>
      (InPlace.onBytes step buf).run s.provider)
    (hreply : (InPlace.onBytes step buf).run s.provider = .ok (reply, q))
    (hrejected : reply.1.toOption ≠ some opened) :
    act.run s = .ok (⟨.error .failure, Bytes.zeros length ++ rest⟩,
      ⟨q, s.events ++ [failed]⟩) := by
  obtain ⟨answer, bytes⟩ := reply
  have hbytes := InPlace.length_of_run_onBytes hreply
  rw [hrun, hreply, Except.map_ok, settleOpened, if_neg hrejected, hbytes, hlength]

namespace Operation

theorem reach_le {op : Operation} {least : Nat} (hmet : unmet? (op.demands least) = none) :
    op.reach ≤ op.buffer.length := by
  cases op with
  | sealBox out padded nonce key => exact (unmet?_pair_eq_none_iff.mp hmet).2
  | sealBoxInPlace buf nonce key => exact Nat.le_refl _
  | unsealBox out boxed nonce key => exact (unmet?_pair_eq_none_iff.mp hmet).2
  | unsealBoxInPlace buf nonce key => exact Nat.le_refl _
  | openSigned out signed pk => exact (unmet?_pair_eq_none_iff.mp hmet).1
  | _ => exact Nat.zero_le _

/-- The value and the entries of a rejected operation are there before the provider is
known. -/
theorem exists_rejection {op : Operation} {least : Nat} (hwipes : op.Wipes)
    (hmet : unmet? (op.demands least) = none) (name : String) :
    ∃ v entries,
      op.report v = ⟨some .failure, Bytes.zeros op.reach ++ op.buffer.drop op.reach⟩ ∧
      ∀ {σ : Type} (P : Provider σ) {s : Session σ} {reply : op.call.Reply} {q : σ},
        P.name = name → (P.perform op.call).run s.provider = .ok (reply, q) →
          op.Rejected reply → (op.run P).run s = .ok (v, ⟨q, s.events ++ entries⟩) := by
  cases op with
  | sealBox out padded nonce key =>
      obtain ⟨hlong, hroom⟩ := unmet?_pair_eq_none_iff.mp hmet
      refine ⟨⟨.error .failure, Bytes.zeros padded.length ++ out.drop padded.length⟩,
        [.sealing name (padded.length - Size.padding), .sealingFailed name], rfl, ?_⟩
      rintro σ P s reply q rfl hreply hrejected
      exact run_settle_of_rejected (length_padded hlong) (sealBox_run P nonce key s hlong hroom)
        hreply hrejected
  | sealBoxInPlace buf nonce key =>
      have hlong := unmet?_singleton_eq_none_iff.mp hmet
      refine ⟨⟨.error .failure, Bytes.zeros buf.length ++ buf.drop buf.length⟩,
        [.sealing name (buf.length - Size.padding), .sealingFailed name], rfl, ?_⟩
      rintro σ P s reply q rfl hreply hrejected
      rw [List.drop_length]
      exact run_settle_of_rejected (length_padded hlong) (sealBoxInPlace_run P nonce key s hlong)
        hreply hrejected
  | unsealBox out boxed nonce key =>
      obtain ⟨hlong, hroom⟩ := unmet?_pair_eq_none_iff.mp hmet
      refine ⟨⟨.error .failure, Bytes.zeros boxed.length ++ out.drop boxed.length⟩,
        [.unsealing name (boxed.length - Size.padding), .unsealingFailed name], rfl, ?_⟩
      rintro σ P s reply q rfl hreply hrejected
      exact run_settle_of_rejected rfl (unsealBox_run P nonce key s hlong hroom) hreply hrejected
  | unsealBoxInPlace buf nonce key =>
      have hlong := unmet?_singleton_eq_none_iff.mp hmet
      refine ⟨⟨.error .failure, Bytes.zeros buf.length ++ buf.drop buf.length⟩,
        [.unsealing name (buf.length - Size.padding), .unsealingFailed name], rfl, ?_⟩
      rintro σ P s reply q rfl hreply hrejected
      rw [List.drop_length]
      exact run_settle_of_rejected rfl (unsealBoxInPlace_run P nonce key s hlong) hreply hrejected
  | openSigned out signed pk =>
      obtain ⟨hroom, hlong⟩ := unmet?_pair_eq_none_iff.mp hmet
      have hregion : (out.take signed.length).length = signed.length :=
        List.length_take_of_le hroom
      refine ⟨⟨.error .failure, Bytes.zeros signed.length ++ out.drop signed.length⟩,
        [.openingFailed name], rfl, ?_⟩
      rintro σ P s reply q rfl hreply hrejected
      exact run_settleOpened_of_rejected hregion (openSigned_run P pk s hroom hlong) hreply
        hrejected
  | _ => exact hwipes.elim

end Operation

/-! ## Opened lengths -/

/-- The only length that an opening answers is the message's. -/
theorem length_of_openSigned {P : Provider σ} {out signed buf : Bytes} {pk : SignPublicKey}
    {s t : Session σ} {length : Nat}
    (h : (openSigned P out signed pk).run s = .ok (⟨.ok length, buf⟩, t)) :
    length + Size.signature = signed.length := by
  by_cases hsmall : out.length < signed.length
  · rw [openSigned_run_of_small P pk s hsmall] at h
    cases h
  · have hroom := Nat.le_of_not_lt hsmall
    by_cases hshort : signed.length < Size.signature
    · rw [openSigned_run_of_short P pk s hroom hshort] at h
      cases h
    · have hlong := Nat.le_of_not_lt hshort
      rw [openSigned_run P pk s hroom hlong] at h
      cases hreply : (InPlace.onBytes (P.openSigned signed pk) (out.take signed.length)).run
        s.provider with
      | error v =>
          rw [hreply] at h
          cases h
      | ok r =>
          rw [hreply, Except.map_ok, settleOpened] at h
          split at h
          · cases h
            exact Nat.sub_add_cancel hlong
          · cases h

/-- The stand-in scribbles over the buffer of a forged string, and may misreport the length
of a sound one. An opening shows neither. -/
theorem openSigned_run_of_standIn {out signed : Bytes} {pk : SignPublicKey}
    (s : Session StandIn.State) (hroom : signed.length ≤ out.length)
    (hlong : Size.signature ≤ signed.length)
    (h : s.provider.failing = true ∨ s.provider.misreporting = true ∨
      (StandIn.weakSignature pk (signed.drop Size.signature)).toList ≠
        signed.take Size.signature) :
    (openSigned StandIn.provider out signed pk).run s =
      .ok (⟨.error .failure, Bytes.zeros signed.length ++ out.drop signed.length⟩,
        ⟨s.provider.counted, s.events ++ [.openingFailed "mock"]⟩) := by
  have hregion : (out.take signed.length).length = signed.length :=
    List.length_take_of_le hroom
  have hrun := openSigned_run StandIn.provider pk s hroom hlong
  cases hfailing : s.provider.failing with
  | true =>
      have hreply : (InPlace.onBytes (StandIn.openSigned signed pk) (out.take signed.length)).run
          s.provider = .ok ((.error {}, out.take signed.length), s.provider.counted) := by
        rw [InPlace.run_onBytes, StandIn.openSigned, StandIn.working_run_of_failing _ _ hfailing]
        rfl
      exact run_settleOpened_of_rejected hregion hrun hreply (by simp [Except.toOption])
  | false =>
      have hreply := StandIn.openSigned_run pk hfailing hlong hregion
      apply run_settleOpened_of_rejected hregion hrun hreply
      rw [StandIn.openReply]
      split
      · rename_i hsigned
        have hmisreporting : s.provider.misreporting = true := by
          simpa [hfailing, hsigned] using h
        simp [hmisreporting, Except.toOption]
      · simp [Except.toOption]

/-! ## Two providers -/

/-- Two providers of one name that reject the same operation, whatever they wrote, leave the
same value and the same entries: a failure, with the region zeroed and nothing else touched.
An opening answers the length of the message or none, and the stand-in's scribble and
wrong length are never seen. -/
theorem rejections_indistinguishable :
    (∀ (σ τ : Type) (P : Provider σ) (Q : Provider τ) (op : Operation) (s : Session σ)
        (t : Session τ) (x y : op.call.Reply) (p : σ) (q : τ),
      P.name = Q.name → op.Wipes → unmet? (op.demands P.hashStateBytes) = none →
      (P.perform op.call).run s.provider = .ok (x, p) → op.Rejected x →
      (Q.perform op.call).run t.provider = .ok (y, q) → op.Rejected y →
        ∃ v entries, (op.run P).run s = .ok (v, ⟨p, s.events ++ entries⟩) ∧
          (op.run Q).run t = .ok (v, ⟨q, t.events ++ entries⟩) ∧
          op.report v = ⟨some .failure, Bytes.zeros op.reach ++ op.buffer.drop op.reach⟩ ∧
          op.reach ≤ op.buffer.length) ∧
    (∀ (σ : Type) (P : Provider σ) (out signed buf : Bytes) (pk : SignPublicKey)
        (s t : Session σ) (length : Nat),
      (openSigned P out signed pk).run s = .ok (⟨.ok length, buf⟩, t) →
        length + Size.signature = signed.length) ∧
    (∀ (out signed : Bytes) (pk : SignPublicKey) (s : Session StandIn.State),
      signed.length ≤ out.length → Size.signature ≤ signed.length →
      s.provider.failing = true ∨ s.provider.misreporting = true ∨
        (StandIn.weakSignature pk (signed.drop Size.signature)).toList ≠
          signed.take Size.signature →
      (openSigned StandIn.provider out signed pk).run s =
        .ok (⟨.error .failure, Bytes.zeros signed.length ++ out.drop signed.length⟩,
          ⟨s.provider.counted, s.events ++ [.openingFailed "mock"]⟩)) := by
  refine ⟨?_, ?_, ?_⟩
  · intro σ τ P Q op s t x y p q hname hwipes hmet hx hrejectedx hy hrejectedy
    obtain ⟨v, entries, hreport, hrun⟩ := Operation.exists_rejection hwipes hmet P.name
    exact ⟨v, entries, hrun P rfl hx hrejectedx, hrun Q hname.symm hy hrejectedy, hreport,
      Operation.reach_le hmet⟩
  · intro σ P out signed buf pk s t length
    exact length_of_openSigned
  · intro out signed pk s hroom hlong
    exact openSigned_run_of_standIn s hroom hlong

/-- The stand-in with a sealing that fills the buffer with `0xee` before it rejects. -/
def scribbling : Provider StandIn.State :=
  { StandIn.provider with
    sealInPlace := fun {n} _ _ _ => return ⟨.error {}, ByteVec.replicate n 0xee⟩ }

/-- A failing stand-in leaves the padded message where it is, and the other one scribbles
over it. Neither is to be seen. An empty signed message is opened with its length, and wiped
when the length is misreported. -/
theorem scribble_not_seen :
    (∃ v entries,
      (sealBox StandIn.provider (List.replicate 35 7) (List.replicate 33 1) ⟨.zeros 24⟩
        ⟨.zeros 32⟩).run ⟨{ failing := true }, []⟩ =
          .ok (v, ⟨{ calls := 1, failing := true }, entries⟩) ∧
      (sealBox scribbling (List.replicate 35 7) (List.replicate 33 1) ⟨.zeros 24⟩
        ⟨.zeros 32⟩).run ⟨{}, []⟩ = .ok (v, ⟨{}, entries⟩) ∧
      v.buffer = Bytes.zeros 33 ++ [7, 7]) ∧
    (∃ buf t, (openSigned StandIn.provider (Bytes.zeros 64)
        (StandIn.weakSignature ⟨.zeros 32⟩ []).toList ⟨.zeros 32⟩).run ⟨{}, []⟩ =
          .ok (⟨.ok 0, buf⟩, t) ∧
      0 + Size.signature = (StandIn.weakSignature ⟨.zeros 32⟩ []).toList.length) ∧
    (openSigned StandIn.provider (Bytes.zeros 64)
      (StandIn.weakSignature ⟨.zeros 32⟩ []).toList ⟨.zeros 32⟩).run
        ⟨{ misreporting := true }, []⟩ =
      .ok (⟨.error .failure, Bytes.zeros 64⟩,
        ⟨{ calls := 1, misreporting := true }, [.openingFailed "mock"]⟩) := by
  have hlength := (StandIn.weakSignature ⟨.zeros 32⟩ []).length_toList
  refine ⟨?_, ?_, ?_⟩
  · obtain ⟨v, entries, hfailing, hscribbling, hreport, -⟩ := rejections_indistinguishable.1 _ _
      StandIn.provider scribbling
      (.sealBox (List.replicate 35 7) (List.replicate 33 1) ⟨.zeros 24⟩ ⟨.zeros 32⟩)
      ⟨{ failing := true }, []⟩ ⟨{}, []⟩ _ _ _ _ rfl trivial rfl rfl nofun rfl nofun
    exact ⟨v, entries, hfailing, hscribbling, congrArg Report.buffer hreport⟩
  · exact ⟨_, _, rfl, rejections_indistinguishable.2.1 _ StandIn.provider (Bytes.zeros 64) _ _
      ⟨.zeros 32⟩ ⟨{}, []⟩ _ _ rfl⟩
  · exact rejections_indistinguishable.2.2 _ _ _ ⟨{ misreporting := true }, []⟩
      (Nat.le_of_eq hlength) (Nat.le_of_eq hlength.symm) (.inr (.inl rfl))

end Strongbox.Guard
