import Strongbox.Proofs.Command.Equations
import Strongbox.Proofs.Host.Tree

/-! # What commands release

A command that ends in trouble has neither changed a file nor printed anything. One that ends
well has released what a guarded operation answered, at the one place that it was told. -/

namespace Strongbox

variable {σ α β : Type}

/-- Neither a file nor what was printed has changed. -/
structure World.Withheld (w w' : World σ) : Prop where
  files : w'.files = w.files
  output : w'.output = w.output

namespace World.Withheld

theorem refl (w : World σ) : w.Withheld w := ⟨rfl, rfl⟩

theorem trans {w w' w'' : World σ} (h : w.Withheld w') (h' : w'.Withheld w'') : w.Withheld w'' :=
  ⟨h'.files.trans h.files, h'.output.trans h.output⟩

theorem after (w : World σ) (s : Session σ) : w.Withheld (w.after s) := ⟨rfl, rfl⟩

theorem drained (w : World σ) (source : Source) : w.Withheld (w.drained source) := by
  cases source <;> exact ⟨rfl, rfl⟩

end World.Withheld

namespace Command

/-! ## Parts that release nothing -/

theorem exec_attempt_of_ends {ε : Type} {w : World σ} {act : Action σ (Except ε α)} {a : α}
    (h : act.Ends w.session (.ok a)) (trouble : ε → Trouble) :
    ∃ w', w.Withheld w' ∧ exec (attempt trouble act) w = .ok (.ok a, w') := by
  obtain ⟨s, hs⟩ := h
  refine ⟨w.after s, .after w s, ?_⟩
  rw [exec_attempt, hs]
  rfl

/-- However a part of a command ends, it has released nothing, and a result is as `Q` says. -/
structure Quiet (act : ExceptT Trouble (Console σ) α) (w : World σ) (Q : α → World σ → Prop) :
    Prop where
  outcome : Outcome (fun r => w.Withheld r.2 ∧ ∀ a, r.1 = .ok a → Q a r.2) (fun _ => True)
    (exec act w)

section Quiet

variable {act : ExceptT Trouble (Console σ) α} {next : α → ExceptT Trouble (Console σ) β}
  {w w' : World σ} {Q : α → World σ → Prop} {R : β → World σ → Prop}

theorem Quiet.of_eq {result : Except Trouble α} (h : exec act w = .ok (result, w'))
    (hw : w.Withheld w') (hresult : ∀ a, result = .ok a → Q a w') : Quiet act w Q :=
  ⟨.of_eq_ok h ⟨hw, hresult⟩⟩

theorem Quiet.pure {a : α} (h : Q a w) : Quiet (Pure.pure a) w Q := by
  refine .of_eq (exec_pure a w) (.refl w) ?_
  rintro b ⟨⟩
  exact h

theorem Quiet.throw {trouble : Trouble} : Quiet (MonadExcept.throw trouble) w Q :=
  .of_eq (exec_throw trouble w) (.refl w) nofun

theorem Quiet.imp {R : α → World σ → Prop} (h : Quiet act w Q) (hQR : ∀ a w', Q a w' → R a w') :
    Quiet act w R :=
  ⟨h.outcome.imp (fun r hr => ⟨hr.1, fun a ha => hQR a r.2 (hr.2 a ha)⟩) fun _ => id⟩

theorem Quiet.bind (h : Quiet act w Q) (hnext : ∀ a w', Q a w' → Quiet (next a) w' R) :
    Quiet (act >>= next) w R := by
  constructor
  rw [exec_bind]
  apply h.outcome.bind
  rintro ⟨result, w'⟩ ⟨hw, hresult⟩
  cases result with
  | error trouble => exact ⟨hw, nofun⟩
  | ok a =>
      refine (hnext a w' (hresult a rfl)).outcome.imp ?_ fun _ => id
      rintro r ⟨hw', hr⟩
      exact ⟨hw.trans hw', hr⟩

theorem quiet_liftM (result : Except Trouble α) (w : World σ) :
    Quiet (liftM result) w fun a w' => result = .ok a ∧ w' = w :=
  .of_eq (exec_liftM result w) (.refl w) fun _ h => ⟨h, rfl⟩

theorem quiet_guarded (act : Action σ α) (w : World σ) :
    Quiet (guarded act) w fun a w' => ∃ s, act.run w.session = .ok (a, s) ∧ w' = w.after s := by
  constructor
  rw [exec_guarded]
  cases hrun : act.run w.session with
  | error v => trivial
  | ok r =>
      obtain ⟨a, s⟩ := r
      refine ⟨.after w s, ?_⟩
      rintro b ⟨⟩
      exact ⟨s, rfl, rfl⟩

theorem quiet_attempt {ε : Type} (trouble : ε → Trouble) (act : Action σ (Except ε α))
    (w : World σ) :
    Quiet (attempt trouble act) w fun a w' =>
      ∃ s, act.run w.session = .ok (.ok a, s) ∧ w' = w.after s := by
  constructor
  rw [exec_attempt]
  cases hrun : act.run w.session with
  | error v => trivial
  | ok r =>
      obtain ⟨result, s⟩ := r
      refine ⟨.after w s, ?_⟩
      intro a ha
      cases result with
      | error e => cases ha
      | ok b =>
          cases ha
          exact ⟨s, rfl, rfl⟩

theorem quiet_loadKey (n : Nat) (path : Path) (w : World σ) :
    Quiet (loadKey n path) w fun key w' => w.files.keyAt n path = .ok key ∧ w' = w :=
  .of_eq (exec_loadKey n path w) (.refl w) fun _ h => ⟨h, rfl⟩

theorem quiet_readInput (path : Path) (w : World σ) :
    Quiet (readInput path) w fun data w' =>
      w.contents path.source = .ok data ∧ w' = w.drained path.source := by
  refine .of_eq (exec_readInput path w) (.drained w path.source) ?_
  intro data h
  cases hread : w.contents path.source with
  | error fault =>
      rw [hread] at h
      cases h
  | ok data' =>
      rw [hread] at h
      cases h
      exact ⟨rfl, rfl⟩

theorem quiet_lift {act : Console σ α}
    (h : Outcome (fun r => w.Withheld r.2 ∧ Q r.1 r.2) (fun _ => True) (act.run w)) :
    Quiet (ExceptT.lift act) w Q := by
  constructor
  rw [exec_lift]
  apply h.map
  rintro r ⟨hw, hr⟩
  refine ⟨hw, ?_⟩
  rintro a ⟨⟩
  exact hr

theorem quiet_require {trouble : Fault → Trouble} {request : Console σ (Except Fault α)}
    (h : Outcome (fun r => w.Withheld r.2) (fun _ => True) (request.run w)) :
    Quiet (require trouble request) w fun _ _ => True := by
  constructor
  rw [exec_require]
  exact h.map fun r hw => ⟨hw, fun _ _ => trivial⟩

end Quiet

/-! ## Parts that release something at their end -/

/-- What it is to release bytes at an outlet, if there is one. -/
def Released (outlet : Option Source) (bytes : Bytes) (w w' : World σ) : Prop :=
  match outlet with
  | none => w.Withheld w'
  | some .standard => w'.files = w.files ∧ w'.output = w.output ++ bytes
  | some (.file p) => w.files.write p bytes = .ok w'.files ∧ w'.output = w.output

/-- How a command may leave the world. -/
structure Release (outlet : Option Source) (Allowed : Bytes → Prop) (w : World σ)
    (result : Except Trouble Unit) (w' : World σ) : Prop where
  /-- Trouble withholds everything. -/
  withheld : ∀ trouble, result = .error trouble → w.Withheld w'
  /-- A command that ends well has released bytes that it may release. -/
  released : result = .ok () → ∃ bytes, Allowed bytes ∧ Released outlet bytes w w'

/-- However a command ends, it has released nothing but allowed bytes at its outlet. -/
structure Releasing (outlet : Option Source) (Allowed : Bytes → Prop)
    (act : ExceptT Trouble (Console σ) Unit) (w : World σ) : Prop where
  outcome : Outcome (fun r => Release outlet Allowed w r.1 r.2) (fun _ => True) (exec act w)

section Releasing

variable {outlet : Option Source} {Allowed : Bytes → Prop} {w w' w'' : World σ}

/-- Only the file at the outlet differs. -/
theorem Released.elsewhere {bytes : Bytes} (h : Released outlet bytes w w') (loc : Location)
    (hloc : ∀ p, outlet = some (.file p) → w.files.locate p ≠ .ok loc) :
    w'.files.get? loc = w.files.get? loc := by
  rcases outlet with _ | _ | p
  · rw [World.Withheld.files h]
  · rw [h.1]
  · obtain ⟨written, hadmits, hfiles⟩ := Tree.write_ok_iff.mp h.1
    rw [hfiles]
    apply Tree.get?_put_of_ne _ _ hadmits.ne_nil
    rintro rfl
    exact hloc p rfl hadmits.located

theorem Released.of_withheld {bytes : Bytes} (hw : w.Withheld w')
    (h : Released outlet bytes w' w'') : Released outlet bytes w w'' := by
  obtain ⟨hfiles, houtput⟩ := hw
  rcases outlet with _ | _ | p
  · exact World.Withheld.trans ⟨hfiles, houtput⟩ h
  · exact ⟨h.1.trans hfiles, by rw [h.2, houtput]⟩
  · exact ⟨by rw [← hfiles, h.1], h.2.trans houtput⟩

theorem Release.of_withheld {result : Except Trouble Unit} (hw : w.Withheld w')
    (h : Release outlet Allowed w' result w'') : Release outlet Allowed w result w'' where
  withheld trouble htrouble := hw.trans (h.withheld trouble htrouble)
  released hok := by
    obtain ⟨bytes, hallowed, hreleased⟩ := h.released hok
    exact ⟨bytes, hallowed, hreleased.of_withheld hw⟩

/-- What releases nothing may come first. -/
theorem Quiet.bind_releasing {act : ExceptT Trouble (Console σ) α}
    {next : α → ExceptT Trouble (Console σ) Unit} {Q : α → World σ → Prop} (h : Quiet act w Q)
    (hnext : ∀ a w', w.Withheld w' → Q a w' → Releasing outlet Allowed (next a) w') :
    Releasing outlet Allowed (act >>= next) w := by
  constructor
  rw [exec_bind]
  apply h.outcome.bind
  rintro ⟨result, w'⟩ ⟨hw, hresult⟩
  cases result with
  | error trouble => exact ⟨fun _ _ => hw, nofun⟩
  | ok a =>
      have hrest := (hnext a w' hw (hresult a rfl)).outcome
      exact hrest.imp (fun r hr => hr.of_withheld hw) fun _ => id

theorem releasing_writeOutput {path : Path} {bytes : Bytes} (h : Allowed bytes) (w : World σ) :
    Releasing (some path.source) Allowed (writeOutput path bytes) w := by
  cases hsource : path.source with
  | standard =>
      refine ⟨.of_eq_ok (exec_writeOutput_standard hsource bytes w) ⟨nofun, fun _ => ?_⟩⟩
      exact ⟨bytes, h, rfl, rfl⟩
  | file p =>
      constructor
      rw [exec_writeOutput_file hsource]
      cases hwrite : w.files.write p bytes with
      | error fault => exact ⟨fun _ _ => .refl w, nofun⟩
      | ok files => exact ⟨nofun, fun _ => ⟨bytes, h, hwrite, rfl⟩⟩

theorem releasing_note {bytes : Bytes} (h : Allowed bytes) (text : String) (w : World σ) :
    Releasing none Allowed (ExceptT.lift (Host.note text)) w :=
  ⟨⟨nofun, fun _ => ⟨bytes, h, rfl, rfl⟩⟩⟩

/-- A line on standard error may come last. -/
theorem Releasing.bind_note {act : ExceptT Trouble (Console σ) Unit} (text : String)
    (h : Releasing outlet Allowed act w) :
    Releasing outlet Allowed (act >>= fun _ => ExceptT.lift (Host.note text)) w := by
  constructor
  rw [exec_bind]
  apply h.outcome.bind
  rintro ⟨result, w'⟩ hr
  cases result with
  | error trouble => exact hr
  | ok u =>
      refine ⟨nofun, fun _ => ?_⟩
      obtain ⟨bytes, hallowed, hreleased⟩ := hr.released rfl
      refine ⟨bytes, hallowed, ?_⟩
      rcases outlet with _ | _ | p
      · exact ⟨hreleased.files, hreleased.output⟩
      · exact hreleased
      · exact hreleased

end Releasing

end Command

end Strongbox
