import Strongbox.Command.Wire
import Strongbox.Proofs.Guard.Cipher
import Strongbox.Proofs.Guard.Equations

/-! # Boxes

Over a provider whose calls follow a cipher, each guarded box operation ends with the
cipher's outcome, and opening is sealing read backwards. -/

namespace Strongbox

namespace Guard

variable {σ : Type}

/-- The provider's box calls follow one cipher for each nonce and key, in the states
that are `ready`. -/
structure SealsBy (P : Provider σ) (ready : σ → Prop) (c : Nonce → SymmetricKey → Cipher) :
    Prop where
  seals : ∀ {q : σ} (nonce : Nonce) (key : SymmetricKey) (message : Bytes), ready q →
    ∃ q', (InPlace.onBytes (P.sealInPlace nonce key)
      (Bytes.zeros Size.padding ++ message)).run q =
        .ok ((.ok (), Bytes.zeros Size.sealedPadding ++ (c nonce key).boxed message), q')
  unseals : ∀ {q : σ} (nonce : Nonce) (key : SymmetricKey) {front box : Bytes}, ready q →
    front.length = Size.sealedPadding → Size.tag ≤ box.length →
    ∃ left q', (InPlace.onBytes (P.unsealInPlace nonce key) (front ++ box)).run q =
      .ok ((c nonce key).answer box left, q')

namespace SealsBy

variable {P : Provider σ} {ready : σ → Prop} {c : Nonce → SymmetricKey → Cipher}
  {s : Session σ}

theorem sealBox_ends (h : SealsBy P ready c) (hready : ready s.provider) (out padded : Bytes)
    (nonce : Nonce) (key : SymmetricKey) :
    (sealBox P out padded nonce key).Ends s ((c nonce key).sealOutcome out padded) := by
  by_cases hshort : padded.length < Size.padding
  · rw [Cipher.sealOutcome, if_pos hshort]
    exact ⟨_, sealBox_run_of_short P nonce key s hshort⟩
  · have hlong := Nat.le_of_not_lt hshort
    rw [Cipher.sealOutcome, if_neg hshort]
    by_cases hsmall : out.length < padded.length
    · rw [if_pos hsmall]
      exact ⟨_, sealBox_run_of_small P nonce key s hlong hsmall⟩
    · obtain ⟨q, hrun⟩ := h.seals nonce key (padded.drop Size.padding) hready
      rw [if_neg hsmall, Action.Ends,
        sealBox_run P nonce key s hlong (Nat.le_of_not_lt hsmall), hrun]
      exact ⟨_, rfl⟩

theorem sealBoxInPlace_ends (h : SealsBy P ready c) (hready : ready s.provider) (buf : Bytes)
    (nonce : Nonce) (key : SymmetricKey) :
    (sealBoxInPlace P buf nonce key).Ends s ((c nonce key).sealInPlaceOutcome buf) := by
  by_cases hshort : buf.length < Size.padding
  · rw [Cipher.sealInPlaceOutcome, if_pos hshort]
    exact ⟨_, sealBoxInPlace_run_of_short P nonce key s hshort⟩
  · obtain ⟨q, hrun⟩ := h.seals nonce key (buf.drop Size.padding) hready
    rw [Cipher.sealInPlaceOutcome, if_neg hshort, Action.Ends,
      sealBoxInPlace_run P nonce key s (Nat.le_of_not_lt hshort), hrun, Except.map_ok, settle,
      List.append_nil]
    exact ⟨_, rfl⟩

/-- A call on a box long enough, settled, is the cipher's outcome. -/
theorem settle_unseal (h : SealsBy P ready c) {q : σ} (hready : ready q) {box : Bytes}
    (nonce : Nonce) (key : SymmetricKey) (rest : Bytes) (begun failed : Event)
    (log : List Event) (hlong : Size.padding ≤ box.length) :
    ∃ t, settle () wipeAll rest begun failed log <$>
      (InPlace.onBytes (P.unsealInPlace nonce key) box).run q =
        .ok ((c nonce key).openOutcome box rest, t) := by
  have hfront : (box.take Size.sealedPadding).length = Size.sealedPadding := by
    rw [List.length_take]
    exact Nat.min_eq_left (Nat.le_trans (by decide) hlong)
  have hbox : Size.tag ≤ (box.drop Size.sealedPadding).length := by
    rw [List.length_drop]
    exact Nat.sub_le_sub_right hlong _
  obtain ⟨left, q', hrun⟩ := h.unseals nonce key hready hfront hbox
  rw [List.take_append_drop] at hrun
  have hlength := InPlace.length_of_run_onBytes hrun
  cases hopened : (c nonce key).opened? (box.drop Size.sealedPadding) with
  | none =>
      simp only [hopened] at hlength
      refine ⟨⟨q', log ++ [begun, failed]⟩, ?_⟩
      simp only [hrun, Except.map_ok, Cipher.answer, settle, wipeAll, hlength,
        Cipher.openOutcome, hopened]
  | some message =>
      refine ⟨⟨q', log ++ [begun]⟩, ?_⟩
      simp only [hrun, Except.map_ok, Cipher.answer, settle, Cipher.openOutcome, hopened]

theorem unsealBox_ends (h : SealsBy P ready c) (hready : ready s.provider) (out box : Bytes)
    (nonce : Nonce) (key : SymmetricKey) :
    (unsealBox P out box nonce key).Ends s ((c nonce key).unsealOutcome out box) := by
  by_cases hshort : box.length < Size.padding
  · rw [Cipher.unsealOutcome, if_pos hshort]
    exact ⟨_, unsealBox_run_of_short P nonce key s hshort⟩
  · have hlong := Nat.le_of_not_lt hshort
    rw [Cipher.unsealOutcome, if_neg hshort]
    by_cases hsmall : out.length < box.length
    · rw [if_pos hsmall]
      exact ⟨_, unsealBox_run_of_small P nonce key s hlong hsmall⟩
    · rw [if_neg hsmall, Action.Ends,
        unsealBox_run P nonce key s hlong (Nat.le_of_not_lt hsmall)]
      exact h.settle_unseal hready nonce key _ _ _ _ hlong

theorem unsealBoxInPlace_ends (h : SealsBy P ready c) (hready : ready s.provider) (buf : Bytes)
    (nonce : Nonce) (key : SymmetricKey) :
    (unsealBoxInPlace P buf nonce key).Ends s ((c nonce key).unsealInPlaceOutcome buf) := by
  by_cases hshort : buf.length < Size.padding
  · rw [Cipher.unsealInPlaceOutcome, if_pos hshort]
    exact ⟨_, unsealBoxInPlace_run_of_short P nonce key s hshort⟩
  · have hlong := Nat.le_of_not_lt hshort
    rw [Cipher.unsealInPlaceOutcome, if_neg hshort, Action.Ends,
      unsealBoxInPlace_run P nonce key s hlong]
    exact h.settle_unseal hready nonce key _ _ _ _ hlong

/-! ## The forms on the wire -/

theorem sealMessage_ends (h : SealsBy P ready c) (hready : ready s.provider)
    (nonce : Nonce) (key : SymmetricKey) (message : Bytes) :
    (Wire.sealMessage P key nonce message).Ends s (.ok ((c nonce key).boxed message)) := by
  obtain ⟨t, hrun⟩ :=
    h.sealBoxInPlace_ends hready (Bytes.zeros Size.padding ++ message) nonce key
  have hmessage : (Bytes.zeros Size.padding ++ message).drop Size.padding = message :=
    List.drop_left' (Bytes.length_zeros _)
  have hlong : ¬ (Bytes.zeros Size.padding ++ message).length < Size.padding := by
    rw [List.length_append, Bytes.length_zeros]
    omega
  rw [Cipher.sealInPlaceOutcome, if_neg hlong, hmessage] at hrun
  refine ⟨t, ?_⟩
  simp only [Wire.sealMessage, StateT.run_bind, hrun, ok_bind,
    List.drop_left' (Bytes.length_zeros _)]
  rfl

theorem unsealMessage_ends (h : SealsBy P ready c) (hready : ready s.provider)
    (nonce : Nonce) (key : SymmetricKey) (box : Bytes) :
    (Wire.unsealMessage P key nonce box).Ends s
      (if box.length < Size.tag then .error (.boxTooShort box.length)
      else match (c nonce key).opened? box with
        | some message => .ok message
        | none => .error (.unsealing .failure)) := by
  by_cases hshort : box.length < Size.tag
  · rw [if_pos hshort]
    refine ⟨s, ?_⟩
    simp only [Wire.unsealMessage, hshort, ite_true]
    rfl
  · obtain ⟨t, hrun⟩ :=
      h.unsealBoxInPlace_ends hready (Bytes.zeros Size.sealedPadding ++ box) nonce key
    have hbox : (Bytes.zeros Size.sealedPadding ++ box).drop Size.sealedPadding = box :=
      List.drop_left' (Bytes.length_zeros _)
    have hlong : ¬ (Bytes.zeros Size.sealedPadding ++ box).length < Size.padding := by
      rw [List.length_append, Bytes.length_zeros]
      simp only [Size.tag, Size.padding, Size.sealedPadding] at hshort ⊢
      omega
    rw [Cipher.unsealInPlaceOutcome, if_neg hlong, Cipher.openOutcome, hbox] at hrun
    rw [if_neg hshort]
    refine ⟨t, ?_⟩
    simp only [Wire.unsealMessage, hshort, ite_false, StateT.run_bind, hrun, ok_bind]
    cases (c nonce key).opened? box with
    | none => rfl
    | some message =>
        simp only [List.append_nil, List.drop_left' (Bytes.length_zeros _)]
        rfl

end SealsBy

/-! ## Opening is sealing read backwards -/

/-- Sealing the message into `out` gives the box, of which it zeroes the first sixteen
bytes. -/
def SealsTo (P : Provider σ) (s : Session σ) (nonce : Nonce) (key : SymmetricKey)
    (out message box : Bytes) : Prop :=
  box.length = Size.padding + message.length ∧
    (sealBox P out (Bytes.zeros Size.padding ++ message) nonce key).Ends s
      ⟨.ok (), Bytes.zeros Size.sealedPadding ++ box.drop Size.sealedPadding ++
        out.drop box.length⟩

/-- Opening, in one session, inverts sealing, in another, in both directions. -/
structure OpensWhatItSeals (P : Provider σ) (s t : Session σ) (nonce : Nonce)
    (key : SymmetricKey) : Prop where
  unseal_iff : ∀ {out out' box message : Bytes}, box.length ≤ out.length →
    box.length ≤ out'.length →
      ((unsealBox P out box nonce key).Ends s
        ⟨.ok (), Bytes.zeros Size.padding ++ message ++ out.drop box.length⟩ ↔
          SealsTo P t nonce key out' message box)
  unsealInPlace_iff : ∀ {out' box message : Bytes}, box.length ≤ out'.length →
      ((unsealBoxInPlace P box nonce key).Ends s ⟨.ok (), Bytes.zeros Size.padding ++ message⟩ ↔
        SealsTo P t nonce key out' message box)
  /-- Success never looks otherwise. -/
  unsealed : ∀ {out box : Bytes} {w : Written Unit}, (unsealBox P out box nonce key).Ends s w →
    w.result = .ok () → ∃ message,
      w.buffer = Bytes.zeros Size.padding ++ message ++ out.drop box.length
  unsealedInPlace : ∀ {box : Bytes} {w : Written Unit},
    (unsealBoxInPlace P box nonce key).Ends s w → w.result = .ok () →
      ∃ message, w.buffer = Bytes.zeros Size.padding ++ message
  /-- Every message can be sealed. -/
  seals : ∀ {out message : Bytes}, Size.padding + message.length ≤ out.length →
    ∃ box, SealsTo P t nonce key out message box
  /-- Every body has one tag under which it opens. -/
  one_tag : ∀ body : Bytes, ∃ tag : ByteVec Size.tag, ∀ tag' : ByteVec Size.tag,
    (∃ w, (unsealBoxInPlace P (Bytes.zeros Size.sealedPadding ++ (tag'.toList ++ body))
      nonce key).Ends s w ∧ w.result = .ok ()) ↔ tag' = tag
  /-- The first sixteen bytes of a box have no influence. -/
  front_free : ∀ {out box box' : Bytes} {w : Written Unit}, box'.length = box.length →
    box'.drop Size.sealedPadding = box.drop Size.sealedPadding →
    (unsealBox P out box nonce key).Ends s w → (unsealBox P out box' nonce key).Ends s w
  front_free_inPlace : ∀ {box box' : Bytes} {w w' : Written Unit}, box'.length = box.length →
    box'.drop Size.sealedPadding = box.drop Size.sealedPadding →
    (unsealBoxInPlace P box nonce key).Ends s w →
    (unsealBoxInPlace P box' nonce key).Ends s w' →
      w'.result = w.result ∧ (Size.padding ≤ box.length → w' = w)
  wire_iff : ∀ {box message : Bytes},
    (Wire.unsealMessage P key nonce box).Ends s (.ok message) ↔
      (Wire.sealMessage P key nonce message).Ends t (.ok box)

namespace SealsBy

variable {P : Provider σ} {ready : σ → Prop} {c : Nonce → SymmetricKey → Cipher}
  {s t : Session σ}

theorem sealsTo_iff (h : SealsBy P ready c) (hready : ready t.provider) {nonce : Nonce}
    {key : SymmetricKey} {out message box : Bytes} (hout : box.length ≤ out.length) :
    SealsTo P t nonce key out message box ↔
      box.length = Size.padding + message.length ∧
        (c nonce key).boxed message = box.drop Size.sealedPadding := by
  refine and_congr_right fun hlength => ?_
  rw [(h.sealBox_ends hready out _ nonce key).iff_eq]
  exact (c nonce key).sealOutcome_eq_iff hout hlength

theorem opensWhatItSeals (h : SealsBy P ready c) (hs : ready s.provider)
    (ht : ready t.provider) (nonce : Nonce) (key : SymmetricKey) :
    OpensWhatItSeals P s t nonce key where
  unseal_iff {out _ box _} hout hout' := by
    rw [(h.unsealBox_ends hs out box nonce key).iff_eq, h.sealsTo_iff ht hout']
    exact (c nonce key).unsealOutcome_eq_iff hout
  unsealInPlace_iff {_ box _} hout' := by
    rw [(h.unsealBoxInPlace_ends hs box nonce key).iff_eq, h.sealsTo_iff ht hout']
    exact (c nonce key).unsealInPlaceOutcome_eq_iff
  unsealed {out box w} hw hok := by
    obtain rfl := ((h.unsealBox_ends hs out box nonce key).iff_eq w).mp hw
    have heq := (c nonce key).unsealOutcome_of_ok hok
    rw [heq] at hok ⊢
    exact (c nonce key).openOutcome_of_ok hok
  unsealedInPlace {box w} hw hok := by
    obtain rfl := ((h.unsealBoxInPlace_ends hs box nonce key).iff_eq w).mp hw
    have heq := (c nonce key).unsealInPlaceOutcome_of_ok hok
    rw [heq] at hok ⊢
    obtain ⟨message, hmessage⟩ := (c nonce key).openOutcome_of_ok hok
    exact ⟨message, by rwa [List.append_nil] at hmessage⟩
  seals {out message} hout := by
    have hlength : (Bytes.zeros Size.sealedPadding ++ (c nonce key).boxed message).length =
        Size.padding + message.length := by
      simp only [List.length_append, Bytes.length_zeros, Cipher.length_boxed, Size.tag,
        Size.padding, Size.sealedPadding]
      omega
    refine ⟨Bytes.zeros Size.sealedPadding ++ (c nonce key).boxed message, ?_⟩
    rw [h.sealsTo_iff ht (by rwa [hlength]), List.drop_left' (Bytes.length_zeros _)]
    exact ⟨hlength, rfl⟩
  one_tag body := by
    refine ⟨(c nonce key).tag body, fun tag => ?_⟩
    rw [← (c nonce key).unsealInPlaceOutcome_ok_iff tag body]
    have hends := h.unsealBoxInPlace_ends hs
      (Bytes.zeros Size.sealedPadding ++ (tag.toList ++ body)) nonce key
    constructor
    · rintro ⟨w, hw, hok⟩
      rwa [hw.unique hends] at hok
    · intro hok
      exact ⟨_, hends, hok⟩
  front_free {out box box' w} hlength hdrop hw := by
    rw [(h.unsealBox_ends hs out box nonce key).iff_eq] at hw
    rw [(h.unsealBox_ends hs out box' nonce key).iff_eq, hw,
      (c nonce key).unsealOutcome_congr out hlength hdrop]
  front_free_inPlace {box box' w w'} hlength hdrop hw hw' := by
    rw [(h.unsealBoxInPlace_ends hs box nonce key).iff_eq] at hw
    rw [(h.unsealBoxInPlace_ends hs box' nonce key).iff_eq] at hw'
    rw [hw, hw']
    exact (c nonce key).unsealInPlaceOutcome_congr hlength hdrop
  wire_iff {box message} := by
    rw [(h.unsealMessage_ends hs nonce key box).iff_eq,
      (h.sealMessage_ends ht nonce key message).iff_eq, Except.ok.injEq, @eq_comm _ box,
      ← (c nonce key).opened?_eq_some_iff]
    by_cases hshort : box.length < Size.tag
    · rw [if_pos hshort]
      constructor
      · intro hok
        cases hok
      · intro hopened
        rw [(c nonce key).length_of_opened? hopened] at hshort
        omega
    · rw [if_neg hshort]
      cases (c nonce key).opened? box with
      | none => simp
      | some opened => simp [eq_comm]

end SealsBy

end Guard

end Strongbox
