import Strongbox.Command.Wire
import Strongbox.Proofs.Guard.Signatures

/-! # The ways to verify

A signature is verified apart from its message, or in front of it, and then the message is
copied out. Over a provider that follows a scheme both accept the same signatures. -/

namespace Strongbox

namespace SignatureScheme

variable (c : SignatureScheme)

/-- In front of a message its signature is the one that is looked at. -/
theorem opens_append (signature : Signature) (message : Bytes) (pk : SignPublicKey) :
    c.opens pk (signature.toList ++ message) = c.accepts pk message signature := by
  have hlong : Size.signature ≤ (signature.toList ++ message).length := by
    rw [List.length_append, ByteVec.length_toList]
    exact Nat.le_add_right _ _
  have hfront : ByteVec.ofFront Size.signature (signature.toList ++ message) =
      signature.toByteVec := by
    apply ByteVec.ext
    rw [ByteVec.toList_ofFront hlong, List.take_left' (ByteVec.length_toList _)]
  rw [opens, List.drop_left' (ByteVec.length_toList _), hfront]

/-- A string opens to a message exactly if it is an accepted signature in front of it. -/
theorem opens_iff_exists {signed message : Bytes} {pk : SignPublicKey} :
    (Size.signature ≤ signed.length ∧ c.opens pk signed = true ∧
        signed.drop Size.signature = message) ↔
      ∃ signature : Signature, signed = signature.toList ++ message ∧
        c.accepts pk message signature = true := by
  constructor
  · rintro ⟨hlong, hopens, rfl⟩
    refine ⟨⟨.ofFront Size.signature signed⟩, ?_, hopens⟩
    rw [ByteVec.toList_ofFront hlong, List.take_append_drop]
  · rintro ⟨signature, rfl, haccepts⟩
    refine ⟨?_, ?_, List.drop_left' (ByteVec.length_toList _)⟩
    · rw [List.length_append, ByteVec.length_toList]
      exact Nat.le_add_right _ _
    · rwa [opens_append]

theorem openOutcome_of_opens {out signed : Bytes} {pk : SignPublicKey}
    (hroom : signed.length ≤ out.length) (hlong : Size.signature ≤ signed.length)
    (hopens : c.opens pk signed = true) :
    c.openOutcome out signed pk = ⟨.ok (signed.length - Size.signature),
      signed.drop Size.signature ++ out.drop (signed.length - Size.signature)⟩ := by
  rw [openOutcome, if_neg (Nat.not_lt.mpr hroom), if_neg (Nat.not_lt.mpr hlong), if_pos hopens]

theorem openOutcome_of_not_opens {out signed : Bytes} {pk : SignPublicKey}
    (hroom : signed.length ≤ out.length)
    (h : ¬ (Size.signature ≤ signed.length ∧ c.opens pk signed = true)) :
    ∃ after, c.openOutcome out signed pk = ⟨.error .failure, after⟩ := by
  by_cases hshort : signed.length < Size.signature
  · exact ⟨out, by rw [openOutcome, if_neg (Nat.not_lt.mpr hroom), if_pos hshort]; rfl⟩
  · have hrefused : ¬ c.opens pk signed = true := fun hopens =>
      h ⟨Nat.le_of_not_lt hshort, hopens⟩
    refine ⟨Bytes.zeros signed.length ++ out.drop signed.length, ?_⟩
    rw [openOutcome, if_neg (Nat.not_lt.mpr hroom), if_neg hshort, if_neg hrefused]

end SignatureScheme

namespace Guard

variable {σ : Type}

/-- The front of the string is a signature, which verification apart from the message accepts
for the rest of the string. -/
def VerifiesApart (P : Provider σ) (t : Session σ) (pk : SignPublicKey) (signed : Bytes) :
    Prop :=
  Size.signature ≤ signed.length ∧
    (verifyDetached P ⟨.ofFront Size.signature signed⟩ (signed.drop Size.signature) pk).Ends t
      (.ok ())

/-- Opening a signed string, in one session, and verifying apart from the message, in
another, accept the same signatures. -/
structure VerifiesAlike (P : Provider σ) (s t : Session σ) (pk : SignPublicKey) : Prop where
  /-- Success writes the message over the front of the output, and nothing else. -/
  opens_iff : ∀ {out signed after : Bytes} {n : Nat}, signed.length ≤ out.length →
    ((openSigned P out signed pk).Ends s ⟨.ok n, after⟩ ↔
      VerifiesApart P t pk signed ∧ n = signed.length - Size.signature ∧
        after = signed.drop Size.signature ++ out.drop (signed.length - Size.signature))
  refused : ∀ {out signed : Bytes}, signed.length ≤ out.length → ¬ VerifiesApart P t pk signed →
    ∃ after, (openSigned P out signed pk).Ends s ⟨.error .failure, after⟩
  /-- Verification always answers. -/
  answers : ∀ signature message, (verifyDetached P signature message pk).Ends t (.ok ()) ∨
    (verifyDetached P signature message pk).Ends t (.error .failure)
  wire_iff : ∀ {signed message : Bytes}, (Wire.openMessage P pk signed).Ends s (.ok message) ↔
    ∃ signature : Signature, signed = signature.toList ++ message ∧
      (verifyDetached P signature message pk).Ends t (.ok ())

namespace SignsBy

variable {P : Provider σ} {ready : σ → Prop} {c : SignatureScheme} {s t : Session σ}

theorem verifyDetached_ok_iff (h : SignsBy P ready c) (ht : ready t.provider)
    (signature : Signature) (message : Bytes) (pk : SignPublicKey) :
    (verifyDetached P signature message pk).Ends t (.ok ()) ↔
      c.accepts pk message signature = true := by
  rw [(h.verifyDetached_ends ht signature message pk).iff_eq]
  by_cases haccepts : c.accepts pk message signature
  · simp [haccepts]
  · simp [haccepts]

theorem verifiesApart_iff (h : SignsBy P ready c) (ht : ready t.provider) (pk : SignPublicKey)
    (signed : Bytes) :
    VerifiesApart P t pk signed ↔ Size.signature ≤ signed.length ∧ c.opens pk signed = true :=
  and_congr_right fun _ => h.verifyDetached_ok_iff ht _ _ pk

theorem openMessage_ends (h : SignsBy P ready c) (hs : ready s.provider) (pk : SignPublicKey)
    (signed : Bytes) :
    (Wire.openMessage P pk signed).Ends s
      (if Size.signature ≤ signed.length ∧ c.opens pk signed = true then
        .ok (signed.drop Size.signature)
      else .error .verification) := by
  have hroom : signed.length ≤ (Bytes.zeros signed.length).length :=
    Nat.le_of_eq (Bytes.length_zeros _).symm
  obtain ⟨u, hrun⟩ := h.openSigned_ends hs (Bytes.zeros signed.length) signed pk
  by_cases hopens : Size.signature ≤ signed.length ∧ c.opens pk signed = true
  · have hmessage : (signed.drop Size.signature).length = signed.length - Size.signature :=
      List.length_drop
    rw [c.openOutcome_of_opens hroom hopens.1 hopens.2] at hrun
    refine ⟨u, ?_⟩
    rw [if_pos hopens]
    simp only [Wire.openMessage, StateT.run_bind, hrun, ok_bind, List.take_left' hmessage]
    rfl
  · obtain ⟨after, hrefused⟩ := c.openOutcome_of_not_opens hroom hopens
    rw [hrefused] at hrun
    refine ⟨u, ?_⟩
    rw [if_neg hopens]
    simp only [Wire.openMessage, StateT.run_bind, hrun, ok_bind]
    rfl

theorem openMessage_ok_iff (h : SignsBy P ready c) (hs : ready s.provider) (pk : SignPublicKey)
    (signed message : Bytes) :
    (Wire.openMessage P pk signed).Ends s (.ok message) ↔
      ∃ signature : Signature, signed = signature.toList ++ message ∧
        c.accepts pk message signature = true := by
  rw [(h.openMessage_ends hs pk signed).iff_eq, ← c.opens_iff_exists]
  by_cases hopens : Size.signature ≤ signed.length ∧ c.opens pk signed = true
  · simp [hopens, eq_comm]
  · rw [if_neg hopens]
    constructor
    · intro hok
      cases hok
    · rintro ⟨hlong, haccepts, -⟩
      exact absurd ⟨hlong, haccepts⟩ hopens

theorem verifiesAlike (h : SignsBy P ready c) (hs : ready s.provider) (ht : ready t.provider)
    (pk : SignPublicKey) : VerifiesAlike P s t pk where
  opens_iff {out signed after n} hroom := by
    rw [(h.openSigned_ends hs out signed pk).iff_eq, h.verifiesApart_iff ht]
    by_cases hopens : Size.signature ≤ signed.length ∧ c.opens pk signed = true
    · rw [c.openOutcome_of_opens hroom hopens.1 hopens.2]
      simp [hopens]
    · obtain ⟨left, hrefused⟩ := c.openOutcome_of_not_opens hroom hopens
      rw [hrefused]
      simp [hopens]
  refused {out signed} hroom hrefused := by
    rw [h.verifiesApart_iff ht] at hrefused
    obtain ⟨after, hafter⟩ := c.openOutcome_of_not_opens hroom hrefused
    exact ⟨after, hafter ▸ h.openSigned_ends hs out signed pk⟩
  answers signature message := by
    have hends := h.verifyDetached_ends ht signature message pk
    by_cases haccepts : c.accepts pk message signature
    · rw [if_pos haccepts] at hends
      exact Or.inl hends
    · rw [if_neg haccepts] at hends
      exact Or.inr hends
  wire_iff {signed message} := by
    simp only [h.openMessage_ok_iff hs, h.verifyDetached_ok_iff ht]

end SignsBy

end Guard

end Strongbox
