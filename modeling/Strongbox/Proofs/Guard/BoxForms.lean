import Strongbox.Proofs.Guard.Delegation
import Strongbox.Provider.StandIn

/-! # The two forms of a box operation

Sealing and unsealing work in the caller's one buffer, or from an input into the front of
an output. The second form is the first on a copy of the input, whatever the output held,
with the same calls and the same log. -/

namespace Strongbox.Guard

variable {σ : Type}

/-- What an operation comes to when nobody looks at the buffer. -/
def verdict (act : Action σ (Written Unit)) (s : Session σ) :
    Except Violation (Except CryptoError Unit × Session σ) :=
  (fun r => (r.1.result, r.2)) <$> act.run s

/-- A form from `input` into an output, against the form that works in the input's own
buffer. An input as long as its padding comes to stand in front of what was in the output
behind it. A shorter one is refused and leaves both buffers alone. -/
structure SameFunction (s : Session σ) (input : Bytes) (refusal : CryptoError)
    (into : Bytes → Action σ (Written Unit)) (inPlace : Action σ (Written Unit)) : Prop where
  run_eq : ∀ out, input.length ≤ out.length → (into out).run s =
    (fun r => (⟨r.1.result, if input.length < Size.padding then out
      else r.1.buffer ++ out.drop input.length⟩, r.2)) <$> inPlace.run s
  length_eq : ∀ w t, inPlace.run s = .ok (w, t) → w.buffer.length = input.length
  run_of_short : input.length < Size.padding → ∃ e, inPlace.run s =
    .ok (.refuse refusal input, { s with events := s.events ++ [e] })

namespace SameFunction

variable {s : Session σ} {input : Bytes} {refusal : CryptoError}
  {into : Bytes → Action σ (Written Unit)} {inPlace : Action σ (Written Unit)}

/-- What the output held has no influence. -/
theorem verdict_eq (h : SameFunction s input refusal into inPlace) {out : Bytes}
    (hroom : input.length ≤ out.length) : verdict (into out) s = verdict inPlace s := by
  rw [verdict, h.run_eq out hroom, Functor.map_map]
  rfl

theorem of_short {e : Event} (hshort : input.length < Size.padding)
    (hinto : ∀ out, (into out).run s =
      .ok (.refuse refusal out, { s with events := s.events ++ [e] }))
    (hinPlace : inPlace.run s =
      .ok (.refuse refusal input, { s with events := s.events ++ [e] })) :
    SameFunction s input refusal into inPlace where
  run_eq out _ := by
    rw [hinto, hinPlace, Except.map_ok, if_pos hshort]
    rfl
  length_eq w t hrun := by
    rw [hinPlace] at hrun
    cases hrun
    rfl
  run_of_short _ := ⟨e, hinPlace⟩

/-- Both forms are one call on the same bytes, and differ in what is put behind them. -/
theorem of_settle {step : {n : Nat} → InPlace σ n Unit} {buf : Bytes} {begun failed : Event}
    (hlong : Size.padding ≤ input.length) (hlength : buf.length = input.length)
    (hinto : ∀ out, input.length ≤ out.length → (into out).run s =
      settle () wipeAll (out.drop input.length) begun failed s.events <$>
        (InPlace.onBytes step buf).run s.provider)
    (hinPlace : inPlace.run s = settle () wipeAll [] begun failed s.events <$>
      (InPlace.onBytes step buf).run s.provider) :
    SameFunction s input refusal into inPlace where
  run_eq out hroom := by
    rw [hinto out hroom, hinPlace, Functor.map_map]
    refine congrArg (· <$> _) (funext fun r => ?_)
    rw [← settle_followedBy, if_neg (Nat.not_lt.mpr hlong)]
    rfl
  length_eq w t hrun := by
    rw [hinPlace] at hrun
    cases hreply : (InPlace.onBytes step buf).run s.provider with
    | error v =>
        rw [hreply] at hrun
        cases hrun
    | ok r =>
        obtain ⟨⟨answer, bytes⟩, q⟩ := r
        have hbytes := InPlace.length_of_run_onBytes hreply
        rw [hreply] at hrun
        cases answer with
        | ok u =>
            cases hrun
            simp only [List.append_nil]
            rw [hbytes, hlength]
        | error e =>
            cases hrun
            simp only [List.append_nil, wipeAll, Bytes.length_zeros]
            rw [hbytes, hlength]
  run_of_short hshort := absurd hshort (Nat.not_lt.mpr hlong)

end SameFunction

variable (P : Provider σ)

theorem sealing_sameFunction (s : Session σ) (nonce : Nonce) (key : SymmetricKey)
    (padded : Bytes) :
    SameFunction s padded (.capacity Size.padding padded.length) (sealBox P · padded nonce key)
      (sealBoxInPlace P padded nonce key) := by
  by_cases hshort : padded.length < Size.padding
  · exact .of_short hshort (fun out => sealBox_run_of_short P nonce key s hshort)
      (sealBoxInPlace_run_of_short P nonce key s hshort)
  · have hlong := Nat.le_of_not_lt hshort
    exact .of_settle hlong (length_padded hlong)
      (fun out hroom => sealBox_run P nonce key s hlong hroom)
      (sealBoxInPlace_run P nonce key s hlong)

theorem unsealing_sameFunction (s : Session σ) (nonce : Nonce) (key : SymmetricKey)
    (boxed : Bytes) :
    SameFunction s boxed .failure (unsealBox P · boxed nonce key)
      (unsealBoxInPlace P boxed nonce key) := by
  by_cases hshort : boxed.length < Size.padding
  · exact .of_short hshort (fun out => unsealBox_run_of_short P nonce key s hshort)
      (unsealBoxInPlace_run_of_short P nonce key s hshort)
  · have hlong := Nat.le_of_not_lt hshort
    exact .of_settle hlong rfl (fun out hroom => unsealBox_run P nonce key s hlong hroom)
      (unsealBoxInPlace_run P nonce key s hlong)

/-- The padding is overwritten before the provider sees it. -/
theorem sealBoxInPlace_run_congr {padded padded' : Bytes} (s : Session σ) (nonce : Nonce)
    (key : SymmetricKey) (hlong : Size.padding ≤ padded.length)
    (hlength : padded'.length = padded.length)
    (hmessage : padded'.drop Size.padding = padded.drop Size.padding) :
    (sealBoxInPlace P padded' nonce key).run s = (sealBoxInPlace P padded nonce key).run s := by
  have hlong' : Size.padding ≤ padded'.length := by rwa [hlength]
  rw [sealBoxInPlace_run P nonce key s hlong, sealBoxInPlace_run P nonce key s hlong', hlength,
    hmessage]

theorem sealBoxInPlace_verdict_congr {padded padded' : Bytes} (s : Session σ) (nonce : Nonce)
    (key : SymmetricKey) (hlength : padded'.length = padded.length)
    (hmessage : padded'.drop Size.padding = padded.drop Size.padding) :
    verdict (sealBoxInPlace P padded' nonce key) s =
      verdict (sealBoxInPlace P padded nonce key) s := by
  by_cases hshort : padded.length < Size.padding
  · rw [verdict, verdict, sealBoxInPlace_run_of_short P nonce key s hshort,
      sealBoxInPlace_run_of_short P nonce key s (by omega), hlength]
    rfl
  · rw [verdict, verdict,
      sealBoxInPlace_run_congr P s nonce key (Nat.le_of_not_lt hshort) hlength hmessage]

/-- All that the two forms have in common on one input. -/
structure FormsAgree (s : Session σ) (nonce : Nonce) (key : SymmetricKey) (input : Bytes) :
    Prop where
  sealing : SameFunction s input (.capacity Size.padding input.length)
    (sealBox P · input nonce key) (sealBoxInPlace P input nonce key)
  unsealing : SameFunction s input .failure (unsealBox P · input nonce key)
    (unsealBoxInPlace P input nonce key)
  /-- The padding has no influence, nor has what the outputs held. -/
  sealing_verdict : ∀ input' out out', input'.length = input.length →
    input'.drop Size.padding = input.drop Size.padding →
    input.length ≤ out.length → input.length ≤ out'.length →
      verdict (sealBox P out' input' nonce key) s = verdict (sealBox P out input nonce key) s
  unsealing_verdict : ∀ out out', input.length ≤ out.length → input.length ≤ out'.length →
    verdict (unsealBox P out' input nonce key) s = verdict (unsealBox P out input nonce key) s
  /-- Nor does the padding show in the buffer afterwards. -/
  sealing_buffer : ∀ input', Size.padding ≤ input.length → input'.length = input.length →
    input'.drop Size.padding = input.drop Size.padding →
      (sealBoxInPlace P input' nonce key).run s = (sealBoxInPlace P input nonce key).run s

theorem formsAgree (s : Session σ) (nonce : Nonce) (key : SymmetricKey) (input : Bytes) :
    FormsAgree P s nonce key input where
  sealing := sealing_sameFunction P s nonce key input
  unsealing := unsealing_sameFunction P s nonce key input
  sealing_verdict input' out out' hlength hmessage hroom hroom' := by
    rw [← hlength] at hroom'
    rw [(sealing_sameFunction P s nonce key input').verdict_eq hroom',
      (sealing_sameFunction P s nonce key input).verdict_eq hroom,
      sealBoxInPlace_verdict_congr P s nonce key hlength hmessage]
  unsealing_verdict out out' hroom hroom' := by
    have hsame := unsealing_sameFunction P s nonce key input
    rw [hsame.verdict_eq hroom', hsame.verdict_eq hroom]
  sealing_buffer input' hlong hlength hmessage :=
    sealBoxInPlace_run_congr P s nonce key hlong hlength hmessage

theorem ite_unmet?_singleton (d : Demand) (call : Call) :
    (if unmet? [d] = none then [call] else []) =
      if d.actual < d.required then [] else [call] := by
  by_cases h : d.actual < d.required
  · rw [if_pos h, if_neg (unmet?_singleton_eq_none_iff.not.mpr (Nat.not_le.mpr h))]
  · rw [if_neg h, if_pos (unmet?_singleton_eq_none_iff.mpr (Nat.le_of_not_lt h))]

theorem tape_of_sealBoxInPlace (nonce : Nonce) (key : SymmetricKey) (padded : Bytes)
    {s t : Session (σ × List Call)} {w : Written Unit}
    (h : (sealBoxInPlace P.taped padded nonce key).run s = .ok (w, t)) :
    t.provider.2 = s.provider.2 ++ if padded.length < Size.padding then []
      else [.sealInPlace (Bytes.zeros Size.padding ++ padded.drop Size.padding) nonce key] := by
  rw [Operation.tape_of_run P (.sealBoxInPlace padded nonce key) trivial h]
  exact congrArg _ (ite_unmet?_singleton (.padding padded.length) _)

theorem tape_of_unsealBoxInPlace (nonce : Nonce) (key : SymmetricKey) (boxed : Bytes)
    {s t : Session (σ × List Call)} {w : Written Unit}
    (h : (unsealBoxInPlace P.taped boxed nonce key).run s = .ok (w, t)) :
    t.provider.2 = s.provider.2 ++ if boxed.length < Size.padding then []
      else [.unsealInPlace boxed nonce key] := by
  rw [Operation.tape_of_run P (.unsealBoxInPlace boxed nonce key) trivial h]
  exact congrArg _ (ite_unmet?_singleton (.box boxed.length) _)

/-- With every provider the two forms are one function. They make the same calls with the
same bytes: over a tape they are one function too, and the tape shows the one call. -/
theorem box_forms_agree (nonce : Nonce) (key : SymmetricKey) (input : Bytes) :
    (∀ s : Session σ, FormsAgree P s nonce key input) ∧
    (∀ s : Session (σ × List Call), FormsAgree P.taped s nonce key input) ∧
    (∀ (s t : Session (σ × List Call)) (w : Written Unit),
      (sealBoxInPlace P.taped input nonce key).run s = .ok (w, t) →
        t.provider.2 = s.provider.2 ++ if input.length < Size.padding then []
          else [.sealInPlace (Bytes.zeros Size.padding ++ input.drop Size.padding) nonce key]) ∧
    (∀ (s t : Session (σ × List Call)) (w : Written Unit),
      (unsealBoxInPlace P.taped input nonce key).run s = .ok (w, t) →
        t.provider.2 = s.provider.2 ++ if input.length < Size.padding then []
          else [.unsealInPlace input nonce key]) := by
  refine ⟨?_, ?_, ?_, ?_⟩
  · intro s
    exact formsAgree P s nonce key input
  · intro s
    exact formsAgree P.taped s nonce key input
  · intro s t w
    exact tape_of_sealBoxInPlace P nonce key input
  · intro s t w
    exact tape_of_unsealBoxInPlace P nonce key input

/-- One byte sealed behind a dirty padding, into a buffer with two bytes to spare, and what
comes onto a tape then and when a box is too short. -/
theorem dirty_padding_sealed_alike :
    (sealBox StandIn.provider (List.replicate 35 7) (List.replicate 33 1) ⟨.zeros 24⟩
        ⟨.zeros 32⟩).run ⟨{}, []⟩ =
      (fun r => (⟨r.1.result, r.1.buffer ++ [7, 7]⟩, r.2)) <$>
        (sealBoxInPlace StandIn.provider (Bytes.zeros 32 ++ [1]) ⟨.zeros 24⟩ ⟨.zeros 32⟩).run
          ⟨{}, []⟩ ∧
    (∃ w t, (sealBoxInPlace StandIn.provider.taped (List.replicate 33 1) ⟨.zeros 24⟩
        ⟨.zeros 32⟩).run ⟨({}, []), []⟩ = .ok (w, t) ∧
      t.provider.2 = [.sealInPlace (Bytes.zeros 32 ++ [1]) ⟨.zeros 24⟩ ⟨.zeros 32⟩]) ∧
    ∃ w t, (unsealBoxInPlace StandIn.provider.taped [1] ⟨.zeros 24⟩ ⟨.zeros 32⟩).run
        ⟨({}, []), []⟩ = .ok (w, t) ∧ t.provider.2 = [] := by
  have hclean := box_forms_agree StandIn.provider ⟨.zeros 24⟩ ⟨.zeros 32⟩ (Bytes.zeros 32 ++ [1])
  have hdirty := box_forms_agree StandIn.provider ⟨.zeros 24⟩ ⟨.zeros 32⟩ (List.replicate 33 1)
  have hshort := box_forms_agree StandIn.provider ⟨.zeros 24⟩ ⟨.zeros 32⟩ [1]
  refine ⟨?_, ⟨_, _, rfl, ?_⟩, ⟨_, _, rfl, ?_⟩⟩
  · rw [← (hclean.1 ⟨{}, []⟩).sealing_buffer (List.replicate 33 1) (by decide) rfl rfl]
    exact (hdirty.1 ⟨{}, []⟩).sealing.run_eq (List.replicate 35 7) (by decide)
  · exact hdirty.2.2.1 ⟨({}, []), []⟩ _ _ rfl
  · exact hshort.2.2.2 ⟨({}, []), []⟩ _ _ rfl

end Strongbox.Guard
