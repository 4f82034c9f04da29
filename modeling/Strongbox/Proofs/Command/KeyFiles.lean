import Strongbox.Proofs.Command.Release
import Strongbox.Proofs.Host.Siblings

/-! # The files of a key pair

A run that makes keys makes directories, looks, asks the provider, and then writes two files,
the secret key first. What it leaves when it fails depends on what bars the second, and links may
bring both to one place. -/

namespace Strongbox.Command

variable {σ α : Type}

/-! ## Where the files go -/

theorem ending_key : Path.Ending ".key" := ⟨by decide, by decide, by decide⟩

theorem ending_pub : Path.Ending ".pub" := ⟨by decide, by decide, by decide⟩

/-- A name's first character decides where it goes, so endings do not matter. -/
theorem join_append (outDir : Path) (name : String) :
    ∃ stem, ∀ ending, Path.Ending ending → outDir.join (name ++ ending) = ⟨stem ++ ending⟩ := by
  by_cases habsolute : name.toList.head? = some '/'
  · refine ⟨name, fun ending _ => ?_⟩
    have hhead : (name ++ ending).toList.head? = some '/' := by
      rw [String.toList_append, List.head?_append, habsolute]
      rfl
    rw [Path.join, if_pos hhead]
  · have hhead (ending : String) (h : Path.Ending ending) :
        (name ++ ending).toList.head? ≠ some '/' := by
      rw [String.toList_append]
      cases hname : name.toList with
      | nil => exact fun hslash => h.slash (List.mem_of_mem_head? hslash)
      | cons c cs => rwa [hname] at habsolute
    by_cases hbare : outDir.text = "" ∨ outDir.asksForDirectory
    · refine ⟨outDir.text ++ name, fun ending h => ?_⟩
      rw [Path.join, if_neg (hhead ending h), if_pos hbare, String.append_assoc]
    · refine ⟨outDir.text ++ "/" ++ name, fun ending h => ?_⟩
      rw [Path.join, if_neg (hhead ending h), if_neg hbare]
      simp only [String.append_assoc]

variable (outDir : Path) (name : String)

theorem pubPath_asksForDirectory : (pubPath outDir name).asksForDirectory = false := by
  obtain ⟨stem, hjoin⟩ := join_append outDir name
  rw [pubPath, hjoin _ ending_pub, Path.asksForDirectory_append stem ending_pub]

section Places

variable {outDir name} {t : Tree} {loc loc' : Location}

/-- Where there is a place for the secret key, there is one for the public key, unless a link has
that name. -/
theorem exists_locate_pubPath (hplain : t.Unlinked (pubPath outDir name))
    (h : t.locate (keyPath outDir name) = .ok loc) :
    ∃ loc', t.locate (pubPath outDir name) = .ok loc' := by
  obtain ⟨stem, hjoin⟩ := join_append outDir name
  rw [keyPath, hjoin _ ending_key] at h
  rw [pubPath, hjoin _ ending_pub] at hplain ⊢
  have hlength : (Text.encode ".key").length = (Text.encode ".pub").length := by decide
  exact Tree.exists_locate_sibling ending_key ending_pub hlength hplain h

/-- The two places differ, unless a link has one of the names. -/
theorem locate_pubPath_ne (hkeyPlain : t.Unlinked (keyPath outDir name))
    (hpubPlain : t.Unlinked (pubPath outDir name))
    (hkey : t.locate (keyPath outDir name) = .ok loc)
    (hpub : t.locate (pubPath outDir name) = .ok loc') : loc' ≠ loc := by
  obtain ⟨stem, hjoin⟩ := join_append outDir name
  rw [keyPath, hjoin _ ending_key] at hkeyPlain hkey
  rw [pubPath, hjoin _ ending_pub] at hpubPlain hpub
  exact Tree.locate_sibling_ne ending_key ending_pub (by decide) hkeyPlain hpubPlain hkey hpub

end Places

/-! ## Directories -/

theorem change_run (f : Tree → Except Fault Tree) (w : World σ) :
    (World.change f : Console σ _).run w =
      match f w.files with
      | .ok files => .ok (.ok (), { w with files })
      | .error fault => .ok (.error fault, w) := by
  change World.change f w = _
  cases hf : f w.files <;> simp only [World.change, hf]

/-- Settling for a directory that is there changes nothing. -/
theorem settleDir_run (p : Path) (made : Except Fault Unit) (w : World σ) :
    ∃ result, (settleDir p made : Console σ _).run w = .ok (result, w) := by
  cases made with
  | ok u => exact ⟨_, rfl⟩
  | error fault =>
      refine ⟨if w.files.isDirectory p then .ok () else .error fault, ?_⟩
      change Except.ok (if w.files.isDirectory p then _ else _, w) = _
      rfl

theorem makeDir_run (p : Path) (w : World σ) :
    ∃ result files, (Host.makeDir p : Console σ _).run w = .ok (result, { w with files }) ∧
      w.files.KeepsBut [] files := by
  change ∃ result files, (World.change (·.makeDir p) : Console σ _).run w = _ ∧ _
  rw [change_run]
  cases hmake : w.files.makeDir p with
  | error fault => exact ⟨.error fault, w.files, rfl, .refl _⟩
  | ok files => exact ⟨.ok (), files, rfl, Tree.keepsBut_makeDir hmake⟩

/-- A directory made, or settled for. -/
theorem makeDir_settleDir_run (p : Path) (w : World σ) :
    ∃ result files, (Host.makeDir p >>= settleDir p : Console σ _).run w =
      .ok (result, { w with files }) ∧ w.files.KeepsBut [] files := by
  obtain ⟨made, files, hmade, hkeeps⟩ := makeDir_run p w
  obtain ⟨result, hsettled⟩ := settleDir_run p made { w with files }
  refine ⟨result, files, ?_, hkeeps⟩
  rw [StateT.run_bind, hmade, ok_bind, hsettled]

/-- All files are kept, by induction on the directories above. -/
theorem makeDirs_run (p : Path) (ancestors : List Path) (w : World σ) :
    ∃ result files, (makeDirs p ancestors : Console σ _).run w = .ok (result, { w with files }) ∧
      w.files.KeepsBut [] files := by
  induction ancestors generalizing p w with
  | nil =>
      obtain ⟨made, files, hmade, hkeeps⟩ := makeDir_run p w
      rw [makeDirs, StateT.run_bind, hmade, ok_bind]
      dsimp only
      split
      · obtain ⟨result, files', hrun, hkeeps'⟩ := makeDir_settleDir_run p { w with files }
        exact ⟨result, files', hrun, hkeeps.trans hkeeps'⟩
      · obtain ⟨result, hrun⟩ := settleDir_run p made { w with files }
        exact ⟨result, files, hrun, hkeeps⟩
  | cons above rest ih =>
      obtain ⟨made, files, hmade, hkeeps⟩ := makeDir_run p w
      rw [makeDirs, StateT.run_bind, hmade, ok_bind]
      dsimp only
      split
      · obtain ⟨result, files', hrun, hkeeps'⟩ := ih above { w with files }
        rw [StateT.run_bind, hrun, ok_bind]
        cases result with
        | error fault => exact ⟨.error fault, files', rfl, hkeeps.trans hkeeps'⟩
        | ok u =>
            obtain ⟨result, files'', hrun, hkeeps''⟩ :=
              makeDir_settleDir_run p { w with files := files' }
            exact ⟨result, files'', hrun, (hkeeps.trans hkeeps').trans hkeeps''⟩
      · obtain ⟨result, hrun⟩ := settleDir_run p made { w with files }
        exact ⟨result, files, hrun, hkeeps⟩

/-! ## The two files -/

variable {outDir : Path} {name : String}

theorem exec_saveKey {path : Path} {loc : Location} {w : World σ} (h : w.files.Admits path loc)
    (bytes : Bytes) (mode : Nat) :
    exec (saveKey path bytes mode) w =
      .ok (.ok (), { w with files := w.files.put loc (.file (KeyText.encode bytes) mode) }) := by
  let written := w.files.put loc (.file (KeyText.encode bytes) (w.files.modeAt loc))
  have hwrite : exec (require (.write path) (Host.writeFile path (KeyText.encode bytes))) w =
      .ok (.ok (), { w with files := written }) := by
    rw [exec_require]
    change ((World.change (·.write path (KeyText.encode bytes)) : Console σ _).run w).map _ = _
    rw [change_run, h.write]
    rfl
  rw [saveKey, exec_bind_of_ok hwrite, exec_require]
  change ((World.change (·.chmod path mode) : Console σ _).run _).map _ = _
  rw [change_run, Tree.chmod_put_file h]
  rfl

theorem exec_saveKey_of_error {path : Path} {fault : Fault} {w : World σ} {bytes : Bytes}
    (h : w.files.write path (KeyText.encode bytes) = .error fault) (mode : Nat) :
    exec (saveKey path bytes mode) w = .ok (.error (.write path fault), w) := by
  refine exec_bind_of_error ?_
  rw [exec_require]
  change ((World.change (·.write path (KeyText.encode bytes)) : Console σ _).run w).map _ = _
  rw [change_run, h]
  rfl

/-- Writes the files of a key pair, the secret key first. -/
def saveKeys (outDir : Path) (name : String) (sk pk : Bytes) :
    ExceptT Trouble (Console σ) Unit := do
  saveKey (keyPath outDir name) sk secretMode
  saveKey (pubPath outDir name) pk publicMode

/-- All that can come of writing a key pair. Where links lead both paths to one place, the public
key is what stays there. -/
inductive Saved (outDir : Path) (name : String) (sk pk : Bytes) (before : Tree) :
    Except Trouble Unit → Tree → Prop where
  | barred (fault : Fault) :
      Saved outDir name sk pk before (.error (.write (keyPath outDir name) fault)) before
  | torn (loc : Location) (fault : Fault) (hkey : before.Admits (keyPath outDir name) loc)
      (hpub : (before.put loc (.file (KeyText.encode sk) secretMode)).write (pubPath outDir name)
        (KeyText.encode pk) = .error fault) :
      Saved outDir name sk pk before (.error (.write (pubPath outDir name) fault))
        (before.put loc (.file (KeyText.encode sk) secretMode))
  | saved (loc loc' : Location) (hkey : before.Admits (keyPath outDir name) loc)
      (hpub : before.Admits (pubPath outDir name) loc') :
      Saved outDir name sk pk before (.ok ())
        ((before.put loc (.file (KeyText.encode sk) secretMode)).put loc'
          (.file (KeyText.encode pk) publicMode))

theorem exec_saveKeys (sk pk : Bytes) (w : World σ) :
    ∃ result files, exec (saveKeys outDir name sk pk) w = .ok (result, { w with files }) ∧
      Saved outDir name sk pk w.files result files := by
  rw [saveKeys]
  cases hkeyWrite : w.files.write (keyPath outDir name) (KeyText.encode sk) with
  | error fault =>
      exact ⟨_, w.files, exec_bind_of_error (exec_saveKey_of_error hkeyWrite secretMode),
        .barred fault⟩
  | ok files =>
      obtain ⟨loc, hkey, -⟩ := Tree.write_ok_iff.mp hkeyWrite
      let between := w.files.put loc (.file (KeyText.encode sk) secretMode)
      rw [exec_bind_of_ok (exec_saveKey hkey sk secretMode)]
      cases hpubWrite : between.write (pubPath outDir name) (KeyText.encode pk) with
      | error fault =>
          have hsave :=
            @exec_saveKey_of_error σ _ _ { w with files := between } _ hpubWrite publicMode
          exact ⟨_, between, hsave, .torn loc fault hkey hpubWrite⟩
      | ok files' =>
          obtain ⟨loc', hpub, -⟩ := Tree.write_ok_iff.mp hpubWrite
          have hsave := @exec_saveKey σ _ _ { w with files := between } hpub pk publicMode
          rw [Tree.admits_put_file_iff hkey.free] at hpub
          exact ⟨_, _, hsave, .saved loc loc' hkey hpub⟩

end Strongbox.Command
