import Strongbox.Proofs.Guard.Client
import Strongbox.Proofs.Guard.Rejections

/-! # What the log shows

What a run of moves adds to the log follows from the kinds of the moves, the lengths of what
they were given and the errors that they reported. Two runs that agree in these leave the same
entries, with whatever keys and contents. -/

namespace Strongbox.Guard

variable {σ : Type}

/-! ## Single operations -/

namespace Operation

/-- Zeros in place of all contents: of the arguments only their lengths are left. -/
def blank : Operation → Operation
  | .signingKeysOfSeed _ => .signingKeysOfSeed ⟨.zeros _⟩
  | .agree _ _ => .agree ⟨.zeros _⟩ ⟨.zeros _⟩
  | .sealBox out padded _ _ =>
    .sealBox (Bytes.zeros out.length) (Bytes.zeros padded.length) ⟨.zeros _⟩ ⟨.zeros _⟩
  | .sealBoxInPlace buf _ _ => .sealBoxInPlace (Bytes.zeros buf.length) ⟨.zeros _⟩ ⟨.zeros _⟩
  | .unsealBox out boxed _ _ =>
    .unsealBox (Bytes.zeros out.length) (Bytes.zeros boxed.length) ⟨.zeros _⟩ ⟨.zeros _⟩
  | .unsealBoxInPlace buf _ _ => .unsealBoxInPlace (Bytes.zeros buf.length) ⟨.zeros _⟩ ⟨.zeros _⟩
  | .sign out message _ =>
    .sign (Bytes.zeros out.length) (Bytes.zeros message.length) ⟨.zeros _⟩
  | .signInPlace buf _ => .signInPlace (Bytes.zeros buf.length) ⟨.zeros _⟩
  | .signDetached message _ => .signDetached (Bytes.zeros message.length) ⟨.zeros _⟩
  | .openSigned out signed _ =>
    .openSigned (Bytes.zeros out.length) (Bytes.zeros signed.length) ⟨.zeros _⟩
  | .verifyDetached _ message _ =>
    .verifyDetached ⟨.zeros _⟩ (Bytes.zeros message.length) ⟨.zeros _⟩
  | .digest message => .digest (Bytes.zeros message.length)
  | .hashStream state chunks =>
    .hashStream (Bytes.zeros state.length) (chunks.map fun chunk => Bytes.zeros chunk.length)

theorem isSingle_blank {op : Operation} (h : op.IsSingle) : op.blank.IsSingle := by
  cases op with
  | hashStream state chunks => exact h
  | _ => trivial

/-- Entries made before the provider is called. -/
def begun (name : String) : Operation → List Event
  | .sealBox _ padded _ _ => [.sealing name (padded.length - Size.padding)]
  | .sealBoxInPlace buf _ _ => [.sealing name (buf.length - Size.padding)]
  | .unsealBox _ boxed _ _ => [.unsealing name (boxed.length - Size.padding)]
  | .unsealBoxInPlace buf _ _ => [.unsealing name (buf.length - Size.padding)]
  | .sign _ message _ => [.signing name message.length]
  | .signInPlace buf _ => [.signing name (buf.length - Size.signature)]
  | _ => []

/-- Entries made when the provider has rejected the call. -/
def failed (name : String) : Operation → List Event
  | .agree _ _ => [.agreementRejected name]
  | .sealBox _ _ _ _ => [.sealingFailed name]
  | .sealBoxInPlace _ _ _ => [.sealingFailed name]
  | .unsealBox _ _ _ _ => [.unsealingFailed name]
  | .unsealBoxInPlace _ _ _ => [.unsealingFailed name]
  | .sign _ _ _ => [.signingFailed name]
  | .signInPlace _ _ => [.signingFailed name]
  | .openSigned _ _ _ => [.openingFailed name]
  | .verifyDetached _ _ _ => [.verificationFailed name]
  | _ => []

/-- Entries of an operation all of whose demands are met. -/
def callEntries (name : String) (op : Operation) (error : Option CryptoError) : List Event :=
  op.begun name ++ if error.isSome then op.failed name else []

/-- All entries of an operation that has come to this error or to none. -/
def entries (name : String) (least : Nat) (op : Operation) (error : Option CryptoError) :
    List Event :=
  match unmet? (op.demands least) with
  | some d => [d.event name]
  | none => op.callEntries name error

theorem entries_blank (name : String) (least : Nat) (op : Operation)
    (error : Option CryptoError) :
    op.blank.entries name least error = op.entries name least error := by
  have hdemands : op.blank.demands least = op.demands least := by
    cases op <;> simp [blank, demands]
  have hbegun : op.blank.begun name = op.begun name := by
    cases op <;> simp [blank, begun]
  have hfailed : op.blank.failed name = op.failed name := by
    cases op <;> rfl
  rw [entries, hdemands, callEntries, hbegun, hfailed]
  rfl

end Operation

/-! ### Entries of a call -/

theorem events_settle {β : Type} (value : β) (wipe : Bytes → Bytes) (rest : Bytes)
    (begun failed : Event) (log : List Event) (r : (Answer Unit × Bytes) × σ) :
    (settle value wipe rest begun failed log r).2.events = log ++ ([begun] ++
      if (CryptoError.of? (settle value wipe rest begun failed log r).1.result).isSome then [failed]
      else []) := by
  obtain ⟨⟨answer, bytes⟩, q⟩ := r
  cases answer <;> rfl

theorem events_settleOpened (length : Nat) (rest : Bytes) (failed : Event) (log : List Event)
    (r : (Answer Nat × Bytes) × σ) :
    (settleOpened length rest failed log r).2.events = log ++ ([] ++
      if (CryptoError.of? (settleOpened length rest failed log r).1.result).isSome then [failed]
      else []) := by
  by_cases h : r.1.1.toOption = some length <;> simp [settleOpened, h, CryptoError.of?]

namespace Operation

variable (P : Provider σ)

/-- The two entries of a call, as they stand in the log afterwards. -/
def Logged (op : Operation) (s : Session σ) (r : op.Value × Session σ) : Prop :=
  r.2.events = s.events ++ op.callEntries P.name (op.report r.1).error

theorem run_of_met_logged {op : Operation} (hsingle : op.IsSingle)
    (h : unmet? (op.demands P.hashStateBytes) = none) (s : Session σ) :
    Outcome (op.Logged P s) (fun _ => True) ((op.run P).run s) := by
  cases op with
  | signingKeysOfSeed seed =>
      refine .of_eq_map (signingKeysOfSeed_run P seed s) ?_
      rintro ⟨answer, q⟩
      cases answer <;> exact (List.append_nil _).symm
  | agree peer secret =>
      refine .of_eq_map (agree_run P peer secret s) ?_
      rintro ⟨answer, q⟩
      cases answer <;> rfl
  | sealBox out padded nonce key =>
      obtain ⟨hlong, hroom⟩ := unmet?_pair_eq_none_iff.mp h
      exact .of_eq_map (sealBox_run P nonce key s hlong hroom) (events_settle _ _ _ _ _ _)
  | sealBoxInPlace buf nonce key =>
      have hlong := unmet?_singleton_eq_none_iff.mp h
      exact .of_eq_map (sealBoxInPlace_run P nonce key s hlong) (events_settle _ _ _ _ _ _)
  | unsealBox out boxed nonce key =>
      obtain ⟨hlong, hroom⟩ := unmet?_pair_eq_none_iff.mp h
      exact .of_eq_map (unsealBox_run P nonce key s hlong hroom) (events_settle _ _ _ _ _ _)
  | unsealBoxInPlace buf nonce key =>
      have hlong := unmet?_singleton_eq_none_iff.mp h
      exact .of_eq_map (unsealBoxInPlace_run P nonce key s hlong) (events_settle _ _ _ _ _ _)
  | sign out message secret =>
      have hroom := unmet?_singleton_eq_none_iff.mp h
      exact .of_eq_map (sign_run P secret s hroom) (events_settle _ _ _ _ _ _)
  | signInPlace buf secret =>
      have hlong := unmet?_singleton_eq_none_iff.mp h
      exact .of_eq_map (signInPlace_run P secret s hlong) (events_settle _ _ _ _ _ _)
  | signDetached message secret =>
      refine .of_eq_map (signDetached_run P message secret s) ?_
      rintro ⟨answer, q⟩
      cases answer <;> exact (List.append_nil _).symm
  | openSigned out signed pk =>
      obtain ⟨hroom, hlong⟩ := unmet?_pair_eq_none_iff.mp h
      exact .of_eq_map (openSigned_run P pk s hroom hlong) (events_settleOpened _ _ _ _)
  | verifyDetached signature message pk =>
      refine .of_eq_map (verifyDetached_run P signature message pk s) ?_
      rintro ⟨answer, q⟩
      cases answer <;> rfl
  | digest message =>
      refine .of_eq_map (digest_run P message s) ?_
      rintro ⟨answer, q⟩
      cases answer <;> exact (List.append_nil _).symm
  | hashStream state chunks => exact hsingle.elim

theorem run_logged {op : Operation} (hsingle : op.IsSingle) (s : Session σ) :
    Outcome (fun r => r.2.events =
        s.events ++ op.entries P.name P.hashStateBytes (op.report r.1).error)
      (fun _ => True) ((op.run P).run s) := by
  cases hdemands : unmet? (op.demands P.hashStateBytes) with
  | some d =>
      obtain ⟨v, hrun, -⟩ := run_of_unmet P hdemands s
      refine .of_eq_ok hrun ?_
      rw [entries, hdemands]
  | none =>
      refine (run_of_met_logged P hsingle hdemands s).imp ?_ fun _ => id
      intro r hr
      rw [entries, hdemands]
      exact hr

end Operation

/-! ## Moves -/

namespace Client

variable {P : Provider σ}

/-- Which slots hold an open stream. -/
def openSlots (c : Client P) : List Bool := c.slots.map Option.isSome

theorem openSlots_getElem? (c : Client P) (slot : Nat) :
    c.openSlots[slot]? = some true ↔ (c.stream? slot).isSome := by
  rw [openSlots, List.getElem?_map, stream?]
  cases c.slots[slot]? with
  | none => simp
  | some open? => cases open? <;> simp

/-- A slot that holds this already, or does not exist, is set to it without effect. -/
theorem set_eq_self {slots : List Bool} {slot : Nat} {new : Bool}
    (h : ∀ old, slots[slot]? = some old → old = new) : slots.set slot new = slots := by
  apply List.ext_getElem?
  intro i
  by_cases hslot : slot = i
  · subst hslot
    rw [List.getElem?_set_self']
    cases hold : slots[slot]? with
    | none => rfl
    | some old =>
        rw [h old hold]
        rfl
  · rw [List.getElem?_set_ne hslot]

end Client

namespace Move

/-- Zeros in place of all contents, as for operations. -/
def blank : Move σ → Move Unit
  | .operation op single => .operation op.blank (Operation.isSingle_blank single)
  | .boxKeys => .boxKeys
  | .signingKeys => .signingKeys
  | .start state => .start (Bytes.zeros state.length)
  | .update slot chunk => .update slot (Bytes.zeros chunk.length)
  | .finish slot => .finish slot
  | .disturb _ => .disturb id

/-- All entries of a move that has come to this error or to none, where these slots hold an
open stream. -/
def entries (name : String) (least : Nat) (slots : List Bool) :
    Move σ → Option CryptoError → List Event
  | .operation op _, error => op.entries name least error
  | .boxKeys, error => if error.isSome then [] else [.boxKeysMade name]
  | .signingKeys, error => if error.isSome then [] else [.signingKeysMade name]
  | .start state, error =>
    if state.length < least then [.hashStateTooSmall name least state.length]
    else if error.isSome then [] else [.hashStarted name]
  | .update slot chunk, _ =>
    if slots[slot]? = some true then [.hashing name chunk.length] else []
  | .finish _, _ => []
  | .disturb _, _ => []

/-- The slots that hold an open stream afterwards. -/
def slotsAfter (slots : List Bool) : Move σ → Option CryptoError → List Bool
  | .start _, error => slots ++ [error.isNone]
  | .finish slot, _ => slots.set slot false
  | _, _ => slots

theorem entries_blank (name : String) (least : Nat) (slots : List Bool) (m : Move σ)
    (error : Option CryptoError) :
    m.blank.entries name least slots error = m.entries name least slots error := by
  cases m <;> simp [blank, entries, Operation.entries_blank]

theorem slotsAfter_blank (slots : List Bool) (m : Move σ) (error : Option CryptoError) :
    m.blank.slotsAfter slots error = m.slotsAfter slots error := by
  cases m <;> rfl

variable {P : Provider σ}

/-- What a move adds to the log and does to the slots, told by its error. -/
structure Shows (m : Move σ) (c : Client P) (r : Report × Client P) : Prop where
  events : r.2.session.events =
    c.session.events ++ m.entries P.name P.hashStateBytes c.openSlots r.1.error
  slots : r.2.openSlots = m.slotsAfter c.openSlots r.1.error

theorem play_shows (c : Client P) (m : Move σ) :
    Outcome (m.Shows c) (fun _ => True) (m.play P c) := by
  cases m with
  | operation op single =>
      exact (op.run_logged P single c.session).map fun r hr => ⟨hr, rfl⟩
  | boxKeys =>
      rw [play, boxKeys_run, Functor.map_map]
      refine .of_eq_map rfl ?_
      rintro ⟨answer, q⟩
      cases answer <;> exact ⟨rfl, rfl⟩
  | signingKeys =>
      rw [play, signingKeys_run, Functor.map_map]
      refine .of_eq_map rfl ?_
      rintro ⟨answer, q⟩
      cases answer <;> exact ⟨rfl, rfl⟩
  | start state =>
      rcases Nat.lt_or_ge state.length P.hashStateBytes with hsmall | hroom
      · rw [play, HashStream.start_run_of_small P c.session hsmall]
        refine ⟨?_, ?_⟩
        · rw [entries, if_pos hsmall]
        · exact List.map_append
      · rw [play, HashStream.start_run P c.session hroom, Functor.map_map]
        refine .of_eq_map rfl ?_
        rintro ⟨⟨answer, buf⟩, q⟩
        refine ⟨?_, ?_⟩
        · rw [entries, if_neg (Nat.not_lt.mpr hroom)]
          cases answer with
          | ok u => rfl
          | error _ => exact (List.append_nil _).symm
        · cases answer <;> exact List.map_append
  | update slot chunk =>
      cases hstream : c.stream? slot with
      | none =>
          have hclosed : ¬ c.openSlots[slot]? = some true := by
            rw [c.openSlots_getElem?, hstream]
            exact Bool.false_ne_true
          rw [play, hstream]
          refine ⟨?_, rfl⟩
          rw [entries, if_neg hclosed]
          exact (List.append_nil _).symm
      | some stream =>
          have hopen : c.openSlots[slot]? = some true := by
            rw [c.openSlots_getElem?, hstream]
            rfl
          simp only [play, hstream, HashStream.update_run, Functor.map_map]
          refine .of_eq_map rfl fun r => ⟨?_, ?_⟩
          · rw [entries, if_pos hopen]
          · refine List.map_set.trans (Client.set_eq_self fun old hold => ?_)
            exact Option.some.inj (hold.symm.trans hopen)
  | finish slot =>
      cases hstream : c.stream? slot with
      | none =>
          rw [play, hstream]
          refine ⟨(List.append_nil _).symm, (Client.set_eq_self fun old hold => ?_).symm⟩
          rw [Bool.eq_false_iff]
          rintro rfl
          rw [c.openSlots_getElem?, hstream] at hold
          cases hold
      | some stream =>
          simp only [play, hstream, HashStream.finish_run, Functor.map_map]
          exact .of_eq_map rfl fun r => ⟨(List.append_nil _).symm, List.map_set⟩
  | disturb change => exact ⟨(List.append_nil _).symm, rfl⟩

end Move

/-! ## Runs -/

/-- All entries of a run of moves that come to these errors, one after another. -/
def trail (name : String) (least : Nat) :
    List (Move σ) → List (Option CryptoError) → List Bool → List Event
  | move :: moves, error :: errors, slots =>
    move.entries name least slots error ++
      trail name least moves errors (move.slotsAfter slots error)
  | _, _, _ => []

theorem trail_blank (name : String) (least : Nat) (moves : List (Move σ))
    (errors : List (Option CryptoError)) (slots : List Bool) :
    trail name least (moves.map Move.blank) errors slots = trail name least moves errors slots := by
  induction moves generalizing errors slots with
  | nil => rfl
  | cons move moves ih =>
      cases errors with
      | nil => rfl
      | cons error errors =>
          rw [List.map_cons, trail, trail, Move.entries_blank, Move.slotsAfter_blank, ih]

/-- By induction on the moves: what the log shows of a run is told by lengths and errors. -/
theorem rounds_show (P : Provider σ) (moves : List (Move σ)) (c : Client P) :
    Outcome (fun rs => (clientAfter c rs).session.events = c.session.events ++
        trail P.name P.hashStateBytes moves (rs.map fun r => r.report.error) c.openSlots)
      (fun _ => True) (rounds P moves c) := by
  induction moves generalizing c with
  | nil => exact (List.append_nil _).symm
  | cons move moves ih =>
      apply (move.play_shows c).bind
      rintro ⟨report, after⟩ ⟨hevents, hslots⟩
      apply (ih after).bind
      intro rs hrs
      change (clientAfter c (_ :: rs)).session.events = _
      rw [clientAfter, List.map_cons, List.getLastD_cons]
      change (clientAfter after rs).session.events = _
      rw [hrs, hevents, hslots, List.append_assoc]
      rfl

/-! ## Rejected boxes -/

/-- What a refused or rejected opening of a box of `length` bytes leaves. -/
def rejectedBox (out : Bytes) (length : Nat) : Written Unit :=
  match unmet? [.box length, .room length out.length] with
  | some d => .refuse d.refusal out
  | none => .refuse .failure (Bytes.zeros length ++ out.drop length)

/-- An error and a buffer are all there is to a rejection. -/
theorem eq_refuse_of_report {α : Type} {w : Written α} {e : CryptoError} {buffer : Bytes}
    (h : Report.ofWritten w = ⟨some e, buffer⟩) : w = .refuse e buffer := by
  obtain ⟨result, bytes⟩ := w
  cases result with
  | ok a => cases h
  | error _ =>
      cases h
      rfl

theorem unsealBox_eq_rejectedBox {P : Provider σ} {out boxed : Bytes} {nonce : Nonce}
    {key : SymmetricKey} {s t : Session σ} {v : Written Unit}
    (hrun : (unsealBox P out boxed nonce key).run s = .ok (v, t)) (hrejected : v.result ≠ .ok ()) :
    v = rejectedBox out boxed.length := by
  let op : Operation := .unsealBox out boxed nonce key
  cases hdemands : unmet? (op.demands P.hashStateBytes) with
  | some d =>
      obtain ⟨w, hrefused, hreport⟩ := Operation.run_of_unmet P hdemands s
      cases hrefused.symm.trans hrun
      rw [rejectedBox, show unmet? [.box boxed.length, .room boxed.length out.length] = some d from
        hdemands]
      exact eq_refuse_of_report hreport
  | none =>
      have hwipes : op.Wipes := trivial
      obtain ⟨w, entries, hreport, hrejection⟩ :=
        Operation.exists_rejection hwipes hdemands P.name
      obtain ⟨hlong, hroom⟩ := unmet?_pair_eq_none_iff.mp hdemands
      have hcalled := unsealBox_run P nonce key s hlong hroom
      cases hreply : (InPlace.onBytes (P.unsealInPlace nonce key) boxed).run s.provider with
      | error v =>
          rw [hcalled, hreply] at hrun
          cases hrun
      | ok r =>
          obtain ⟨⟨answer, bytes⟩, q⟩ := r
          cases answer with
          | ok u =>
              rw [hcalled, hreply] at hrun
              cases hrun
              exact absurd rfl hrejected
          | error _ =>
              cases (hrejection P rfl hreply nofun).symm.trans hrun
              rw [rejectedBox, show unmet? [.box boxed.length, .room boxed.length out.length] = none
                from hdemands]
              exact eq_refuse_of_report hreport

/-! ## Two runs -/

/-- Two runs of the same moves on arguments of the same lengths, which report the same errors,
add the same entries to the log, whatever the contents, the keys and the states of the
providers. In particular nothing tells two rejected boxes of one length apart. -/
theorem logs_blind :
    (∀ (σ τ : Type) (P : Provider σ) (Q : Provider τ) (moves : List (Move σ))
        (moves' : List (Move τ)) (c : Client P) (c' : Client Q) (rs : List (Round P))
        (rs' : List (Round Q)),
      P.name = Q.name → P.hashStateBytes = Q.hashStateBytes → c.openSlots = c'.openSlots →
      moves.map Move.blank = moves'.map Move.blank →
      rounds P moves c = .ok rs → rounds Q moves' c' = .ok rs' →
      (rs.map fun r => r.report.error) = (rs'.map fun r => r.report.error) →
      ∃ entries, (clientAfter c rs).session.events = c.session.events ++ entries ∧
        (clientAfter c' rs').session.events = c'.session.events ++ entries) ∧
    (∀ (σ τ : Type) (P : Provider σ) (Q : Provider τ) (out boxed boxed' : Bytes)
        (nonce nonce' : Nonce) (key key' : SymmetricKey) (s t : Session σ) (s' t' : Session τ)
        (v v' : Written Unit),
      P.name = Q.name → boxed.length = boxed'.length →
      (unsealBox P out boxed nonce key).run s = .ok (v, t) → v.result ≠ .ok () →
      (unsealBox Q out boxed' nonce' key').run s' = .ok (v', t') → v'.result ≠ .ok () →
      v = v' ∧ ∃ entries, t.events = s.events ++ entries ∧ t'.events = s'.events ++ entries) := by
  refine ⟨?_, ?_⟩
  · intro σ τ P Q moves moves' c c' rs rs' hname hleast hslots hmoves hrs hrs' herrors
    have hshow := (rounds_show P moves c).of_ok hrs
    have hshow' := (rounds_show Q moves' c').of_ok hrs'
    rw [← trail_blank, hname, hleast, hslots, hmoves, herrors] at hshow
    rw [← trail_blank] at hshow'
    exact ⟨_, hshow, hshow'⟩
  · intro σ τ P Q out boxed boxed' nonce nonce' key key' s t s' t' v v' hname hlength hrun
      hrejected hrun' hrejected'
    have hv := unsealBox_eq_rejectedBox hrun hrejected
    have hv' := unsealBox_eq_rejectedBox hrun' hrejected'
    rw [hlength, ← hv'] at hv
    refine ⟨hv, ?_⟩
    have hblank : (Operation.unsealBox out boxed nonce key).blank =
        (Operation.unsealBox out boxed' nonce' key').blank := by
      rw [Operation.blank, Operation.blank, hlength]
    have hsingle : (Operation.unsealBox out boxed nonce key).IsSingle := trivial
    have hsingle' : (Operation.unsealBox out boxed' nonce' key').IsSingle := trivial
    have hlogged := (Operation.run_logged P hsingle s).of_ok hrun
    have hlogged' := (Operation.run_logged Q hsingle' s').of_ok hrun'
    rw [← Operation.entries_blank, hname, hblank, hv] at hlogged
    rw [← Operation.entries_blank] at hlogged'
    exact ⟨_, hlogged, hlogged'⟩

/-- Moves that succeed, are rejected and are refused, with all contents made of one byte. -/
def movesOf (fill : UInt8) : List (Move StandIn.State) :=
  [.operation (.sealBox (List.replicate 40 fill) (List.replicate 33 fill) ⟨.replicate 24 fill⟩
      ⟨.replicate 32 fill⟩) trivial,
    .operation (.unsealBoxInPlace (List.replicate 34 fill) ⟨.replicate 24 fill⟩
      ⟨.replicate 32 fill⟩) trivial,
    .start (List.replicate 16 fill),
    .operation (.sign [fill] [fill, fill] ⟨.replicate 64 fill⟩) trivial,
    .update 0 [fill, fill],
    .finish 0]

/-- A box of one byte under the key of zeros, whose tag belongs to the byte `1`. -/
def oneByteBox (b : UInt8) : Bytes :=
  Bytes.zeros 16 ++ StandIn.weakTag (Bytes.zeros 32) [1] ++ [b]

/-- Two fillings of the same moves, and a box under a foreign key beside a corrupted one. -/
theorem fillings_not_logged :
    (∃ rs rs' entries,
      rounds StandIn.provider (movesOf 1) ⟨⟨{}, []⟩, []⟩ = .ok rs ∧
      rounds StandIn.provider (movesOf 2) ⟨⟨{ calls := 5 }, []⟩, []⟩ = .ok rs' ∧
      (rs.map fun r => r.report.error) =
        [none, some .failure, none, some (.capacity 66 1), none, none] ∧
      (clientAfter ⟨⟨{}, []⟩, []⟩ rs).session.events = [] ++ entries ∧
      (clientAfter ⟨⟨{ calls := 5 }, []⟩, []⟩ rs').session.events = [] ++ entries) ∧
    ∃ v v' t t' entries,
      (unsealBox StandIn.provider (Bytes.zeros 33) (oneByteBox 1) ⟨.zeros 24⟩
        ⟨⟨9 :: Bytes.zeros 31, rfl⟩⟩).run ⟨{}, []⟩ = .ok (v, t) ∧
      (unsealBox StandIn.provider (Bytes.zeros 33) (oneByteBox 2) ⟨.zeros 24⟩ ⟨.zeros 32⟩).run
        ⟨{}, []⟩ = .ok (v', t') ∧
      v = v' ∧ t.events = [] ++ entries ∧ t'.events = [] ++ entries := by
  refine ⟨?_, ?_⟩
  · obtain ⟨entries, hevents, hevents'⟩ := logs_blind.1 _ _ StandIn.provider StandIn.provider
      (movesOf 1) (movesOf 2) ⟨⟨{}, []⟩, []⟩ ⟨⟨{ calls := 5 }, []⟩, []⟩ _ _ rfl rfl rfl rfl rfl rfl
      rfl
    exact ⟨_, _, entries, rfl, rfl, rfl, hevents, hevents'⟩
  · let rejected : Written Unit × Session StandIn.State :=
      (⟨.error .failure, Bytes.zeros 33⟩,
        ⟨{ calls := 1 }, [.unsealing "mock" 1, .unsealingFailed "mock"]⟩)
    have hforeign : (unsealBox StandIn.provider (Bytes.zeros 33) (oneByteBox 1) ⟨.zeros 24⟩
        ⟨⟨9 :: Bytes.zeros 31, rfl⟩⟩).run ⟨{}, []⟩ = .ok rejected := rfl
    have hcorrupted : (unsealBox StandIn.provider (Bytes.zeros 33) (oneByteBox 2) ⟨.zeros 24⟩
        ⟨.zeros 32⟩).run ⟨{}, []⟩ = .ok rejected := rfl
    have hlength : (oneByteBox 1).length = (oneByteBox 2).length := by simp [oneByteBox]
    obtain ⟨hsame, entries, hevents, hevents'⟩ := logs_blind.2 _ _ StandIn.provider
      StandIn.provider _ _ _ _ _ _ _ _ _ _ _ _ _ rfl hlength hforeign nofun hcorrupted nofun
    exact ⟨_, _, _, _, entries, hforeign, hcorrupted, hsame, hevents, hevents'⟩

end Strongbox.Guard
