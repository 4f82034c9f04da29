import Strongbox.Program
import Strongbox.Proofs.Command.Release

/-! # How a command line ends

Exit code zero stands for a command that ended well, with its result at its output. Exit code
one stands for a trouble, which is reported and releases nothing. -/

namespace Strongbox

variable {σ : Type}

/-- Runs a command and reports its trouble. -/
def Command.exit {m : Type → Type} [Monad m] [Host σ m] (P : Provider σ) (c : Command) : m Nat := do
  match ← (Command.run P c).run with
  | .ok () => return 0
  | .error trouble =>
    for line in trouble.report do
      Host.note line
    return 1

theorem Invocation.run_eq {m : Type → Type} [Monad m] [Host Entropy m] (i : Invocation) :
    (i.run : m Nat) = Command.exit i.provider.provider i.command := rfl

namespace Command

variable {P : Provider σ} {c : Command} {w w' : World σ} {output : Path} {bytes bytes' : Bytes}

/-- The bytes have arrived at an output. -/
def Delivered (output : Path) (bytes : Bytes) (w w' : World σ) : Prop :=
  match output.source with
  | .standard => w'.output = w.output ++ bytes
  | .file p => w'.files.read p = .ok bytes ∧ w'.output = w.output

/-- The command line ends with code zero and delivers the bytes. -/
def Yields (P : Provider σ) (c : Command) (output : Path) (w : World σ) (bytes : Bytes) : Prop :=
  ∃ w', (Command.exit P c : Console σ Nat).run w = .ok (0, w') ∧ Delivered output bytes w w'

/-- The command line ends with code one and releases nothing. -/
def Fails (P : Provider σ) (c : Command) (w : World σ) : Prop :=
  ∃ w', (Command.exit P c : Console σ Nat).run w = .ok (1, w') ∧ w.Withheld w'

theorem note_all_run (lines : List String) (w : World σ) :
    ∃ notices, (forIn lines PUnit.unit fun line _ => do
      Host.note line
      pure (.yield PUnit.unit) : Console σ PUnit).run w = .ok (PUnit.unit, { w with notices }) := by
  induction lines generalizing w with
  | nil => exact ⟨w.notices, rfl⟩
  | cons line lines ih =>
      obtain ⟨notices, hrun⟩ := ih { w with notices := w.notices ++ [.line line] }
      refine ⟨notices, ?_⟩
      rw [List.forIn_cons]
      exact hrun

theorem exit_run_of_ok (h : exec (Command.run P c) w = .ok (.ok (), w')) :
    (Command.exit P c : Console σ Nat).run w = .ok (0, w') := by
  rw [Command.exit, StateT.run_bind]
  change exec (Command.run P c) w >>= _ = _
  rw [h]
  rfl

theorem exit_run_of_error {trouble : Trouble}
    (h : exec (Command.run P c) w = .ok (.error trouble, w')) :
    ∃ notices, (Command.exit P c : Console σ Nat).run w = .ok (1, { w' with notices }) := by
  obtain ⟨notices, hnotes⟩ := note_all_run trouble.report w'
  refine ⟨notices, ?_⟩
  rw [Command.exit, StateT.run_bind]
  change exec (Command.run P c) w >>= _ = _
  rw [h, ok_bind]
  simp only [StateT.run_bind, hnotes]
  rfl

/-- A code of zero or one tells how the command came out. The report of a trouble changes
nothing but the notices. -/
theorem exec_of_exit_run {code : Nat}
    (h : (Command.exit P c : Console σ Nat).run w = .ok (code, w')) :
    ∃ result w₁, exec (Command.run P c) w = .ok (result, w₁) ∧ w'.files = w₁.files ∧
      w'.output = w₁.output ∧ (code = 0 ↔ result = .ok ()) := by
  cases hexec : exec (Command.run P c) w with
  | error v =>
      rw [Command.exit, StateT.run_bind] at h
      change exec (Command.run P c) w >>= _ = _ at h
      rw [hexec] at h
      cases h
  | ok r =>
      obtain ⟨result, w₁⟩ := r
      refine ⟨result, w₁, rfl, ?_⟩
      cases result with
      | ok u =>
          rw [exit_run_of_ok hexec] at h
          cases h
          exact ⟨rfl, rfl, iff_of_true rfl rfl⟩
      | error trouble =>
          obtain ⟨notices, hrun⟩ := exit_run_of_error hexec
          rw [hrun] at h
          cases h
          exact ⟨rfl, rfl, iff_of_false Nat.one_ne_zero nofun⟩

/-- Exit code zero stands for a command that ended well. -/
theorem exit_zero_iff :
    (Command.exit P c : Console σ Nat).run w = .ok (0, w') ↔
      exec (Command.run P c) w = .ok (.ok (), w') := by
  refine ⟨fun h => ?_, exit_run_of_ok⟩
  obtain ⟨result, w₁, hexec, -, -, hresult⟩ := exec_of_exit_run h
  obtain rfl := hresult.mp rfl
  rw [exit_run_of_ok hexec] at h
  cases h
  exact hexec

theorem Delivered.of_withheld {output : Path} {bytes : Bytes} {w w₁ w₂ : World σ}
    (hw : w.Withheld w₁) (h : Delivered output bytes w₁ w₂) : Delivered output bytes w w₂ := by
  obtain ⟨hfiles, houtput⟩ := hw
  rw [Delivered] at h ⊢
  cases hsource : output.source with
  | standard =>
      rw [hsource] at h
      exact h.trans (by rw [houtput])
  | file p =>
      rw [hsource] at h
      exact ⟨h.1, h.2.trans houtput⟩

/-- Output that can be written is delivered. -/
theorem exec_writeOutput_delivers {output : Path} {w : World σ}
    (h : ∀ p, output.source = .file p → ∃ loc, w.files.Admits p loc) (bytes : Bytes) :
    ∃ w', exec (writeOutput output bytes) w = .ok (.ok (), w') ∧ Delivered output bytes w w' := by
  cases hsource : output.source with
  | standard =>
      refine ⟨_, exec_writeOutput_standard hsource bytes w, ?_⟩
      simp only [Delivered, hsource]
  | file p =>
      obtain ⟨loc, hadmits⟩ := h p hsource
      rw [exec_writeOutput_file hsource, hadmits.write]
      refine ⟨_, rfl, ?_⟩
      simp only [Delivered, hsource]
      exact ⟨Tree.read_put_file hadmits _ _, trivial⟩

/-- Two deliveries of one run are the same. -/
theorem Yields.unique (h : Yields P c output w bytes) (h' : Yields P c output w bytes') :
    bytes = bytes' := by
  obtain ⟨w₁, hrun, hdelivered⟩ := h
  obtain ⟨w₂, hrun', hdelivered'⟩ := h'
  rw [hrun] at hrun'
  obtain rfl : w₁ = w₂ := (Prod.mk.inj (Except.ok.inj hrun')).2
  rw [Delivered] at hdelivered hdelivered'
  cases hsource : output.source with
  | standard =>
      rw [hsource] at hdelivered hdelivered'
      exact List.append_cancel_left (hdelivered.symm.trans hdelivered')
  | file p =>
      rw [hsource] at hdelivered hdelivered'
      exact Except.ok.inj (hdelivered.1.symm.trans hdelivered'.1)

theorem Fails.not_yields (h : Fails P c w) : ¬ Yields P c output w bytes := by
  obtain ⟨w₁, hrun, -⟩ := h
  rintro ⟨w₂, hrun', -⟩
  rw [hrun] at hrun'
  exact absurd (Prod.mk.inj (Except.ok.inj hrun')).1 (by decide)

theorem Yields.of_exec {w' : World σ} (h : exec (Command.run P c) w = .ok (.ok (), w'))
    (hdelivered : Delivered output bytes w w') : Yields P c output w bytes :=
  ⟨w', exit_run_of_ok h, hdelivered⟩

theorem Fails.of_exec {w' : World σ} {trouble : Trouble}
    (h : exec (Command.run P c) w = .ok (.error trouble, w')) (hw : w.Withheld w') :
    Fails P c w := by
  obtain ⟨notices, hrun⟩ := exit_run_of_error h
  exact ⟨_, hrun, hw.files, hw.output⟩

end Command

end Strongbox
