import Strongbox.Command.Run
import Strongbox.Host.World
import Strongbox.Proofs.Runs
import Strongbox.Proofs.Text.KeyText

/-! # What the parts of a command do

Run equations on the model of the machine. A key file and an input are what the world holds
for them; a guarded operation sees of the world only its provider. -/

namespace Strongbox

variable {σ α β : Type}

namespace World

/-- The session in which a guarded operation runs. -/
def session (w : World σ) : Session σ := { provider := w.provider }

/-- The world behind a guarded operation. -/
def after (w : World σ) (s : Session σ) : World σ :=
  { w with provider := s.provider, notices := w.notices ++ s.events.map .event }

/-- What reading a source would give. -/
def contents (w : World σ) : Source → Except Fault Bytes
  | .standard => .ok w.input
  | .file p => w.files.read p

/-- The world behind a read. -/
def drained (w : World σ) : Source → World σ
  | .standard => { w with input := [] }
  | .file _ => w

@[simp] theorem provider_drained (w : World σ) (source : Source) :
    (w.drained source).provider = w.provider := by
  cases source <;> rfl

theorem consume_run (w : World σ) (source : Source) :
    (consume source : Console σ _).run w = .ok (w.contents source, w.drained source) := by
  cases source <;> rfl

end World

namespace Command

/-- A part of a command, run on a world. -/
def exec (act : ExceptT Trouble (Console σ) α) (w : World σ) :
    Except Violation (Except Trouble α × World σ) := act.run.run w

@[simp] theorem exec_pure (a : α) (w : World σ) :
    exec (pure a : ExceptT Trouble (Console σ) α) w = .ok (.ok a, w) := rfl

@[simp] theorem exec_throw (trouble : Trouble) (w : World σ) :
    exec (throw trouble : ExceptT Trouble (Console σ) α) w = .ok (.error trouble, w) := rfl

theorem exec_bind (act : ExceptT Trouble (Console σ) α)
    (next : α → ExceptT Trouble (Console σ) β) (w : World σ) :
    exec (act >>= next) w = exec act w >>= fun r =>
      match r.1 with
      | .ok a => exec (next a) r.2
      | .error trouble => .ok (.error trouble, r.2) := by
  change act.run.run w >>= _ = act.run.run w >>= _
  congr 1
  funext r
  obtain ⟨a | trouble, w'⟩ := r <;> rfl

/-- A plain result within a command leaves the world as it is. -/
theorem exec_liftM (result : Except Trouble α) (w : World σ) :
    exec (liftM result : ExceptT Trouble (Console σ) α) w = .ok (result, w) := rfl

/-- A part that ends well is followed by the rest. -/
theorem exec_bind_of_ok {act : ExceptT Trouble (Console σ) α}
    {next : α → ExceptT Trouble (Console σ) β} {w w' : World σ} {a : α}
    (h : exec act w = .ok (.ok a, w')) : exec (act >>= next) w = exec (next a) w' := by
  rw [exec_bind, h, ok_bind]

/-- Trouble ends a command. -/
theorem exec_bind_of_error {act : ExceptT Trouble (Console σ) α}
    {next : α → ExceptT Trouble (Console σ) β} {w w' : World σ} {trouble : Trouble}
    (h : exec act w = .ok (.error trouble, w')) :
    exec (act >>= next) w = .ok (.error trouble, w') := by
  rw [exec_bind, h, ok_bind]

theorem exec_lift (act : Console σ α) (w : World σ) :
    exec (ExceptT.lift act) w = (act.run w).map fun r => (.ok r.1, r.2) := by
  change (act.run w >>= _) = _
  cases act.run w <;> rfl

/-- A request that the host may refuse. -/
theorem exec_require (trouble : Fault → Trouble) (request : Console σ (Except Fault α))
    (w : World σ) :
    exec (require trouble request) w =
      (request.run w).map fun r => (r.1.mapError trouble, r.2) := by
  change (request.run w >>= _) >>= _ = _
  cases request.run w with
  | error v => rfl
  | ok r => obtain ⟨a | fault, w'⟩ := r <;> rfl

theorem exec_guarded (act : Action σ α) (w : World σ) :
    exec (guarded act) w = (act.run w.session).map fun r => (.ok r.1, w.after r.2) := by
  change ((act.run w.session >>= _) >>= _) = _
  cases act.run w.session <;> rfl

theorem exec_attempt {ε : Type} (trouble : ε → Trouble) (act : Action σ (Except ε α))
    (w : World σ) :
    exec (attempt trouble act) w =
      (act.run w.session).map fun r => (r.1.mapError trouble, w.after r.2) := by
  rw [attempt, exec_bind, exec_guarded]
  cases act.run w.session with
  | error v => rfl
  | ok r => obtain ⟨a | e, s⟩ := r <;> rfl

/-- An announcement always ends well. -/
theorem exec_emit (e : Event) (w : World σ) :
    exec (guarded (Action.emit e) : ExceptT Trouble (Console σ) Unit) w =
      .ok (.ok (), { w with notices := w.notices ++ [.event e] }) := rfl

end Command

/-- The key that a file spells. -/
def Tree.keyAt (t : Tree) (n : Nat) (path : Path) : Except Trouble (ByteVec n) :=
  match t.read path with
  | .error fault => .error (.read path fault)
  | .ok bytes =>
    match Text.decode? bytes with
    | none => .error (.read path .notText)
    | some text => KeyText.decode n text path.text

/-- A file with a text that spells the bytes. -/
def KeyFile (t : Tree) (path : Path) (bytes : Bytes) : Prop :=
  ∃ text, t.read path = .ok (Text.encode text) ∧ Hex.Spells text bytes

theorem keyAt_ok_iff {t : Tree} {n : Nat} {path : Path} {v : ByteVec n} :
    t.keyAt n path = .ok v ↔ KeyFile t path v.toList := by
  rw [Tree.keyAt]
  cases hread : t.read path with
  | error fault =>
      constructor
      · exact nofun
      · rintro ⟨text, h, -⟩
        rw [hread] at h
        cases h
  | ok bytes =>
      simp only
      constructor
      · intro h
        cases hdecode : Text.decode? bytes with
        | none =>
            rw [hdecode] at h
            cases h
        | some text =>
            rw [hdecode] at h
            exact ⟨text, by rw [hread, Text.decode?_eq_some_iff.mp hdecode],
              KeyText.decode_ok_iff.mp h⟩
      · rintro ⟨text, h, hspells⟩
        rw [hread] at h
        obtain rfl := Except.ok.inj h
        rw [Text.decode?_encode]
        exact KeyText.decode_ok_iff.mpr hspells

theorem KeyFile.unique {t : Tree} {path : Path} {n : Nat} {key key' : ByteVec n}
    (h : KeyFile t path key.toList) (h' : KeyFile t path key'.toList) : key = key' :=
  Except.ok.inj ((keyAt_ok_iff.mpr h).symm.trans (keyAt_ok_iff.mpr h'))

theorem KeyFile.of_read {t t' : Tree} {path : Path} {bytes : Bytes} (h : KeyFile t path bytes)
    (hread : ∀ contents, t.read path = .ok contents → t'.read path = .ok contents) :
    KeyFile t' path bytes := by
  obtain ⟨text, htext, hspells⟩ := h
  exact ⟨text, hread _ htext, hspells⟩

namespace Command

theorem exec_loadKey (n : Nat) (path : Path) (w : World σ) :
    exec (loadKey n path) w = .ok (w.files.keyAt n path, w) := by
  have hread : exec (require (.read path) (Host.readAll (.file path))) w =
      .ok ((w.files.read path).mapError (.read path), w) := exec_require _ _ w
  rw [loadKey, exec_bind, hread, ok_bind, Tree.keyAt]
  cases w.files.read path with
  | error fault => rfl
  | ok bytes =>
      simp only [Except.mapError]
      cases Text.decode? bytes with
      | none => rfl
      | some text => rfl

/-- The trouble with an input that cannot be read. -/
def inputTrouble (path : Path) : Fault → Trouble :=
  match path.source with
  | .standard => .readStandard
  | .file p => .read p

theorem exec_readInput (path : Path) (w : World σ) :
    exec (readInput path) w =
      .ok ((w.contents path.source).mapError (inputTrouble path), w.drained path.source) := by
  rw [readInput, inputTrouble]
  cases path.source with
  | standard => rfl
  | file p => exact exec_require _ _ w

theorem exec_loadKey_of_keyFile {w : World σ} {path : Path} {n : Nat} {key : ByteVec n}
    (h : KeyFile w.files path key.toList) :
    exec (loadKey n path) w = .ok (.ok key, w) := by
  rw [exec_loadKey, keyAt_ok_iff.mpr h]

theorem exec_readInput_of_contents {w : World σ} {path : Path} {data : Bytes}
    (h : w.contents path.source = .ok data) :
    exec (readInput path) w = .ok (.ok data, w.drained path.source) := by
  rw [exec_readInput, h]
  rfl

theorem exec_writeOutput_standard {path : Path} (h : path.source = .standard) (bytes : Bytes)
    (w : World σ) :
    exec (writeOutput path bytes) w = .ok (.ok (), { w with output := w.output ++ bytes }) := by
  rw [writeOutput, h]
  rfl

theorem exec_writeOutput_file {path p : Path} (h : path.source = .file p) (bytes : Bytes)
    (w : World σ) :
    exec (writeOutput path bytes) w =
      match w.files.write p bytes with
      | .ok files => .ok (.ok (), { w with files })
      | .error fault => .ok (.error (.write p fault), w) := by
  rw [writeOutput, h]
  simp only [exec_require]
  change ((match w.files.write p bytes with | .ok files => _ | .error fault => _ :
    Except Violation (Except Fault Unit × World σ)).map _) = _
  cases w.files.write p bytes <;> rfl

end Command

end Strongbox
