import Strongbox.Proofs.Guard.Operation
import Strongbox.Proofs.Provider.Call

/-! # Demands and delegation

An operation makes demands on lengths, in a fixed order. The first that is not met ends
it with one entry in the log; otherwise the operation is one call of the provider, and
the call keeps every promise. -/

namespace Strongbox

/-- The error that a result holds, if it holds one. -/
def CryptoError.of? {α : Type} : Except CryptoError α → Option CryptoError
  | .ok _ => none
  | .error e => some e

namespace Guard

/-! ## Demands -/

inductive Demand where
  /-- A message to be sealed stands behind its padding. -/
  | padding (actual : Nat)
  /-- The output fits into the caller's buffer. -/
  | room (required actual : Nat)
  /-- A box to be opened is as long as its padding. -/
  | box (actual : Nat)
  /-- A string to be opened is as long as a signature. -/
  | signature (actual : Nat)
  /-- A hash state fits into the caller's buffer. -/
  | hashState (required actual : Nat)
deriving DecidableEq

namespace Demand

def required : Demand → Nat
  | .padding _ => Size.padding
  | .room required _ => required
  | .box _ => Size.padding
  | .signature _ => Size.signature
  | .hashState required _ => required

def actual : Demand → Nat
  | .padding actual => actual
  | .room _ actual => actual
  | .box actual => actual
  | .signature actual => actual
  | .hashState _ actual => actual

/-- Whether the caller declared the length. The length of a box or of a signed string is
the sender's, and says nothing about the caller. -/
def declared : Demand → Bool
  | .box _ => false
  | .signature _ => false
  | _ => true

def Met (d : Demand) : Prop := d.required ≤ d.actual

instance (d : Demand) : Decidable d.Met := inferInstanceAs (Decidable (_ ≤ _))

def refusal (d : Demand) : CryptoError :=
  if d.declared then .capacity d.required d.actual else .failure

/-- The entry in the log when the demand is not met. -/
def event (provider : String) : Demand → Event
  | .padding actual => .paddingMissing Size.padding actual
  | .room required actual => .outputTooSmall required actual
  | .box actual => .sealedTooShort provider actual
  | .signature actual => .signedTooShort provider actual
  | .hashState required actual => .hashStateTooSmall provider required actual

theorem refusal_eq_capacity_iff {d : Demand} {required actual : Nat} :
    d.refusal = .capacity required actual ↔
      d.declared = true ∧ d.required = required ∧ d.actual = actual := by
  cases h : d.declared <;> simp [refusal, h]

theorem level_event (provider : String) (d : Demand) : (d.event provider).level = .debug := by
  cases d <;> rfl

/-- The entry for a declared length shows the numbers of the error. -/
theorem fields_event (provider : String) {d : Demand} (h : d.declared = true) :
    ("required", .number d.required) ∈ (d.event provider).fields ∧
      ("actual", .number d.actual) ∈ (d.event provider).fields := by
  cases d with
  | box actual => cases h
  | signature actual => cases h
  | _ => simp [event, Event.fields, required, actual]

end Demand

/-- The first demand that is not met. -/
def unmet? (demands : List Demand) : Option Demand := demands.find? fun d => ¬ d.Met

@[simp] theorem unmet?_nil : unmet? [] = none := rfl

theorem unmet?_cons_eq_some_iff {d e : Demand} {ds : List Demand} :
    unmet? (d :: ds) = some e ↔ ¬ d.Met ∧ d = e ∨ d.Met ∧ unmet? ds = some e := by
  by_cases h : d.Met <;> simp [unmet?, h]

theorem unmet?_singleton_eq_some_iff {d e : Demand} : unmet? [d] = some e ↔ ¬ d.Met ∧ d = e := by
  simp [unmet?_cons_eq_some_iff]

theorem unmet?_singleton_eq_none_iff {d : Demand} : unmet? [d] = none ↔ d.Met := by
  simp [unmet?]

theorem unmet?_pair_eq_none_iff {d e : Demand} : unmet? [d, e] = none ↔ d.Met ∧ e.Met := by
  simp [unmet?]

/-- What a caller sees of an operation: the error, and what is in its buffer then. -/
structure Report where
  error : Option CryptoError := none
  buffer : Bytes := []

def Report.ofWritten {α : Type} (w : Written α) : Report := ⟨CryptoError.of? w.result, w.buffer⟩

/-- Operations without a buffer of the caller's. -/
def Report.ofResult {α : Type} (result : Except CryptoError α) : Report :=
  ⟨CryptoError.of? result, []⟩

/-! ## What is made of a reply -/

section Settling

variable {σ : Type}

theorem failure_of_reported {α : Type} {answer : Answer α} {e : CryptoError}
    (h : CryptoError.of? (reported answer) = some e) : e = .failure := by
  cases answer with
  | ok a => cases h
  | error _ => exact (Option.some.inj h).symm

theorem provider_settle {β : Type} (value : β) (wipe : Bytes → Bytes) (rest : Bytes)
    (begun failed : Event) (log : List Event) (r : (Answer Unit × Bytes) × σ) :
    (settle value wipe rest begun failed log r).2.provider = r.2 := by
  obtain ⟨⟨answer, bytes⟩, q⟩ := r
  cases answer <;> rfl

theorem failure_of_settle {β : Type} {value : β} {wipe : Bytes → Bytes} {rest : Bytes}
    {begun failed : Event} {log : List Event} {r : (Answer Unit × Bytes) × σ} {e : CryptoError}
    (h : CryptoError.of? (settle value wipe rest begun failed log r).1.result = some e) :
    e = .failure := by
  obtain ⟨⟨answer, bytes⟩, q⟩ := r
  cases answer with
  | ok u => cases h
  | error _ => exact (Option.some.inj h).symm

theorem provider_settleOpened (length : Nat) (rest : Bytes) (failed : Event) (log : List Event)
    (r : (Answer Nat × Bytes) × σ) :
    (settleOpened length rest failed log r).2.provider = r.2 := by
  by_cases h : r.1.1.toOption = some length <;> simp [settleOpened, h]

theorem failure_of_settleOpened {length : Nat} {rest : Bytes} {failed : Event}
    {log : List Event} {r : (Answer Nat × Bytes) × σ} {e : CryptoError}
    (h : CryptoError.of? (settleOpened length rest failed log r).1.result = some e) :
    e = .failure := by
  by_cases hlength : r.1.1.toOption = some length
  · simp [settleOpened, hlength, CryptoError.of?] at h
  · simpa [settleOpened, hlength, CryptoError.of?, eq_comm] using h

end Settling

/-! ## Operations -/

namespace Operation

/-- Streams are made of several calls. -/
def IsSingle : Operation → Prop
  | .hashStream _ _ => False
  | _ => True

/-- The demands, in the order in which they are made. -/
def demands (least : Nat) : Operation → List Demand
  | .sealBox out padded _ _ => [.padding padded.length, .room padded.length out.length]
  | .sealBoxInPlace buf _ _ => [.padding buf.length]
  | .unsealBox out boxed _ _ => [.box boxed.length, .room boxed.length out.length]
  | .unsealBoxInPlace buf _ _ => [.box buf.length]
  | .sign out message _ => [.room (message.length + Size.signature) out.length]
  | .signInPlace buf _ => [.room Size.signature buf.length]
  | .openSigned out signed _ => [.room signed.length out.length, .signature signed.length]
  | .hashStream state _ => [.hashState least state.length]
  | _ => []

/-- The buffer that the caller hands over. -/
def buffer : Operation → Bytes
  | .sealBox out _ _ _ => out
  | .sealBoxInPlace buf _ _ => buf
  | .unsealBox out _ _ _ => out
  | .unsealBoxInPlace buf _ _ => buf
  | .sign out _ _ => out
  | .signInPlace buf _ => buf
  | .openSigned out _ _ => out
  | .hashStream state _ => state
  | _ => []

def report : (op : Operation) → op.Value → Report
  | .signingKeysOfSeed _, result => .ofResult result
  | .agree _ _, result => .ofResult result
  | .sealBox _ _ _ _, written => .ofWritten written
  | .sealBoxInPlace _ _ _, written => .ofWritten written
  | .unsealBox _ _ _ _, written => .ofWritten written
  | .unsealBoxInPlace _ _ _, written => .ofWritten written
  | .sign _ _ _, written => .ofWritten written
  | .signInPlace _ _, written => .ofWritten written
  | .signDetached _ _, result => .ofResult result
  | .openSigned _ _ _, written => .ofWritten written
  | .verifyDetached _ _ _, result => .ofResult result
  | .digest _, result => .ofResult result
  | .hashStream _ _, written => .ofWritten written

/-- The call of the provider, or the first one of a stream. -/
def call : Operation → Call
  | .signingKeysOfSeed seed => .signingKeysOfSeed seed
  | .agree peer secret => .agree peer secret
  | .sealBox _ padded nonce key =>
    .sealInPlace (Bytes.zeros Size.padding ++ padded.drop Size.padding) nonce key
  | .sealBoxInPlace buf nonce key =>
    .sealInPlace (Bytes.zeros Size.padding ++ buf.drop Size.padding) nonce key
  | .unsealBox _ boxed nonce key => .unsealInPlace boxed nonce key
  | .unsealBoxInPlace buf nonce key => .unsealInPlace buf nonce key
  | .sign out message secret => .signInPlace (out.take Size.signature ++ message) secret
  | .signInPlace buf secret => .signInPlace buf secret
  | .signDetached message secret => .signDetached message secret
  | .openSigned out signed pk => .openSigned (out.take signed.length) signed pk
  | .verifyDetached signature message pk => .verifyDetached signature message pk
  | .digest message => .digest message
  | .hashStream state _ => .hashInit state

theorem call_not_onHashState {op : Operation} (hsingle : op.IsSingle) : ¬ op.call.OnHashState := by
  cases op with
  | hashStream state chunks => exact hsingle.elim
  | _ => exact not_false

theorem call_allowed {op : Operation} {least : Nat} (h : unmet? (op.demands least) = none) :
    op.call.Allowed least := by
  cases op with
  | sealBox out padded nonce key =>
      refine ⟨?_, List.take_left' (Bytes.length_zeros _)⟩
      rw [List.length_append, Bytes.length_zeros]
      exact Nat.le_add_right _ _
  | sealBoxInPlace buf nonce key =>
      refine ⟨?_, List.take_left' (Bytes.length_zeros _)⟩
      rw [List.length_append, Bytes.length_zeros]
      exact Nat.le_add_right _ _
  | unsealBox out boxed nonce key => exact (unmet?_pair_eq_none_iff.mp h).1
  | unsealBoxInPlace buf nonce key => exact unmet?_singleton_eq_none_iff.mp h
  | sign out message secret =>
      have hroom : message.length + Size.signature ≤ out.length :=
        unmet?_singleton_eq_none_iff.mp h
      change Size.signature ≤ (out.take Size.signature ++ message).length
      rw [List.length_append, List.length_take]
      omega
  | signInPlace buf secret => exact unmet?_singleton_eq_none_iff.mp h
  | openSigned out signed pk =>
      obtain ⟨hroom, hlong⟩ := unmet?_pair_eq_none_iff.mp h
      exact ⟨List.length_take_of_le hroom, hlong⟩
  | hashStream state chunks => exact unmet?_singleton_eq_none_iff.mp h
  | _ => trivial

variable {σ : Type} (P : Provider σ)

/-- A demand that is not met ends the operation: nothing but the log changes. -/
theorem run_of_unmet {op : Operation} {d : Demand}
    (h : unmet? (op.demands P.hashStateBytes) = some d) (s : Session σ) :
    ∃ v, (op.run P).run s = .ok (v, { s with events := s.events ++ [d.event P.name] }) ∧
      op.report v = ⟨some d.refusal, op.buffer⟩ := by
  cases op with
  | sealBox out padded nonce key =>
      obtain ⟨hshort, rfl⟩ | ⟨hlong, h⟩ := unmet?_cons_eq_some_iff.mp h
      · exact ⟨_, sealBox_run_of_short P nonce key s (Nat.lt_of_not_le hshort), rfl⟩
      · obtain ⟨hsmall, rfl⟩ := unmet?_singleton_eq_some_iff.mp h
        exact ⟨_, sealBox_run_of_small P nonce key s hlong (Nat.lt_of_not_le hsmall), rfl⟩
  | sealBoxInPlace buf nonce key =>
      obtain ⟨hshort, rfl⟩ := unmet?_singleton_eq_some_iff.mp h
      exact ⟨_, sealBoxInPlace_run_of_short P nonce key s (Nat.lt_of_not_le hshort), rfl⟩
  | unsealBox out boxed nonce key =>
      obtain ⟨hshort, rfl⟩ | ⟨hlong, h⟩ := unmet?_cons_eq_some_iff.mp h
      · exact ⟨_, unsealBox_run_of_short P nonce key s (Nat.lt_of_not_le hshort), rfl⟩
      · obtain ⟨hsmall, rfl⟩ := unmet?_singleton_eq_some_iff.mp h
        exact ⟨_, unsealBox_run_of_small P nonce key s hlong (Nat.lt_of_not_le hsmall), rfl⟩
  | unsealBoxInPlace buf nonce key =>
      obtain ⟨hshort, rfl⟩ := unmet?_singleton_eq_some_iff.mp h
      exact ⟨_, unsealBoxInPlace_run_of_short P nonce key s (Nat.lt_of_not_le hshort), rfl⟩
  | sign out message secret =>
      obtain ⟨hsmall, rfl⟩ := unmet?_singleton_eq_some_iff.mp h
      exact ⟨_, sign_run_of_small P secret s (Nat.lt_of_not_le hsmall), rfl⟩
  | signInPlace buf secret =>
      obtain ⟨hshort, rfl⟩ := unmet?_singleton_eq_some_iff.mp h
      exact ⟨_, signInPlace_run_of_short P secret s (Nat.lt_of_not_le hshort), rfl⟩
  | openSigned out signed pk =>
      obtain ⟨hsmall, rfl⟩ | ⟨hroom, h⟩ := unmet?_cons_eq_some_iff.mp h
      · exact ⟨_, openSigned_run_of_small P pk s (Nat.lt_of_not_le hsmall), rfl⟩
      · obtain ⟨hshort, rfl⟩ := unmet?_singleton_eq_some_iff.mp h
        exact ⟨_, openSigned_run_of_short P pk s hroom (Nat.lt_of_not_le hshort), rfl⟩
  | hashStream state chunks =>
      obtain ⟨hsmall, rfl⟩ := unmet?_singleton_eq_some_iff.mp h
      exact ⟨_, hashStream_run_of_small P chunks s (Nat.lt_of_not_le hsmall), rfl⟩
  | _ => cases h

/-- What is made of a provider's reply keeps the provider's state, and reports no error but
a failure. -/
structure Settles (op : Operation) (finish : op.call.Reply × σ → op.Value × Session σ) :
    Prop where
  provider_eq : ∀ r, (finish r).2.provider = r.2
  failure_of_error : ∀ r e, (op.report (finish r).1).error = some e → e = .failure

/-- When all demands are met, a single operation is one call of the provider. -/
theorem run_of_met {op : Operation} (hsingle : op.IsSingle)
    (h : unmet? (op.demands P.hashStateBytes) = none) (s : Session σ) :
    ∃ finish, (op.run P).run s = finish <$> (P.perform op.call).run s.provider ∧
      op.Settles finish := by
  cases op with
  | signingKeysOfSeed seed =>
      exact ⟨_, signingKeysOfSeed_run P seed s, fun _ => rfl, fun _ _ => failure_of_reported⟩
  | agree peer secret =>
      exact ⟨_, agree_run P peer secret s, fun _ => rfl, fun _ _ => failure_of_reported⟩
  | sealBox out padded nonce key =>
      obtain ⟨hlong, hroom⟩ := unmet?_pair_eq_none_iff.mp h
      exact ⟨_, sealBox_run P nonce key s hlong hroom, provider_settle _ _ _ _ _ _,
        fun _ _ => failure_of_settle⟩
  | sealBoxInPlace buf nonce key =>
      have hlong := unmet?_singleton_eq_none_iff.mp h
      exact ⟨_, sealBoxInPlace_run P nonce key s hlong, provider_settle _ _ _ _ _ _,
        fun _ _ => failure_of_settle⟩
  | unsealBox out boxed nonce key =>
      obtain ⟨hlong, hroom⟩ := unmet?_pair_eq_none_iff.mp h
      exact ⟨_, unsealBox_run P nonce key s hlong hroom, provider_settle _ _ _ _ _ _,
        fun _ _ => failure_of_settle⟩
  | unsealBoxInPlace buf nonce key =>
      have hlong := unmet?_singleton_eq_none_iff.mp h
      exact ⟨_, unsealBoxInPlace_run P nonce key s hlong, provider_settle _ _ _ _ _ _,
        fun _ _ => failure_of_settle⟩
  | sign out message secret =>
      have hroom := unmet?_singleton_eq_none_iff.mp h
      exact ⟨_, sign_run P secret s hroom, provider_settle _ _ _ _ _ _,
        fun _ _ => failure_of_settle⟩
  | signInPlace buf secret =>
      have hlong := unmet?_singleton_eq_none_iff.mp h
      exact ⟨_, signInPlace_run P secret s hlong, provider_settle _ _ _ _ _ _,
        fun _ _ => failure_of_settle⟩
  | signDetached message secret =>
      exact ⟨_, signDetached_run P message secret s, fun _ => rfl, fun _ _ => failure_of_reported⟩
  | openSigned out signed pk =>
      obtain ⟨hroom, hlong⟩ := unmet?_pair_eq_none_iff.mp h
      exact ⟨_, openSigned_run P pk s hroom hlong, provider_settleOpened _ _ _ _,
        fun _ _ => failure_of_settleOpened⟩
  | verifyDetached signature message pk =>
      exact ⟨_, verifyDetached_run P signature message pk s, fun _ => rfl,
        fun _ _ => failure_of_reported⟩
  | digest message =>
      exact ⟨_, digest_run P message s, fun _ => rfl, fun _ _ => failure_of_reported⟩
  | hashStream state chunks => exact hsingle.elim

/-- A single operation puts its call on the tape, unless a demand is not met. -/
theorem tape_of_run (op : Operation) (hsingle : op.IsSingle) {v : op.Value}
    {s t : Session (σ × List Call)} (h : (op.run P.taped).run s = .ok (v, t)) :
    t.provider.2 = s.provider.2 ++
      if unmet? (op.demands P.hashStateBytes) = none then [op.call] else [] := by
  cases hdemands : unmet? (op.demands P.hashStateBytes) with
  | some d =>
      obtain ⟨w, hrun, -⟩ := run_of_unmet P.taped hdemands s
      rw [hrun] at h
      cases h
      simp
  | none =>
      obtain ⟨finish, hrun, hsettles⟩ := run_of_met P.taped hsingle hdemands s
      rw [hrun] at h
      cases hperform : (P.taped.perform op.call).run s.provider with
      | error e =>
          rw [hperform] at h
          cases h
      | ok r =>
          rw [hperform, Except.map_ok, Except.ok.injEq] at h
          have hprovider : t.provider = r.2 := by rw [← hsettles.provider_eq r, h]
          rw [hprovider, if_pos rfl]
          exact P.tape_of_perform hperform

end Operation

end Guard

end Strongbox
