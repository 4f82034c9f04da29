import Strongbox.Host.Tree
import Strongbox.Proofs.Runs

/-! # Changes of a tree

A write replaces the entry at one location. It can be located and read afterwards, and every
other path that led somewhere still leads there, through the same links. -/

namespace Strongbox.Tree

variable {t t' : Tree} {p : Path} {loc : Location}

@[simp] theorem get?_nil (t : Tree) : t.get? [] = some .directory := by simp [get?]

theorem get?_put_self (t : Tree) (e : Entry) (h : loc ≠ []) : (t.put loc e).get? loc = some e := by
  rw [get?_put t loc loc e h, if_pos rfl]

theorem get?_put_of_ne (t : Tree) (e : Entry) (h : loc ≠ []) {other : Location}
    (hother : other ≠ loc) : (t.put loc e).get? other = t.get? other := by
  rw [get?_put t loc other e h, if_neg hother]

/-- The later of two entries for one location stays. -/
theorem put_put (t : Tree) (loc : Location) (e e' : Entry) :
    (t.put loc e).put loc e' = t.put loc e' := by
  simp [put, List.filter_filter]

@[simp] theorem target?_put (t : Tree) (loc : Location) (e : Entry) (other : Location) :
    (t.put loc e).target? other = t.target? other := rfl

/-! ## Ways -/

/-- Every directory is still there, and the links are the same. -/
structure KeepsWays (before after : Tree) : Prop where
  directories : ∀ loc, before.get? loc = some .directory → after.get? loc = some .directory
  links : after.links = before.links

theorem KeepsWays.target? (h : t.KeepsWays t') (loc : Location) :
    t'.target? loc = t.target? loc := by
  rw [Tree.target?, Tree.target?, h.links]

/-- A step that can be taken passes through a directory, so it can be taken wherever that is
still there. -/
theorem KeepsWays.turn (h : t.KeepsWays t') {here : Location} {s : String} {x : Turn}
    (hturn : t.turn here s = .ok x) : t'.turn here s = .ok x := by
  rw [Tree.turn] at hturn ⊢
  cases hentry : t.get? here with
  | none => simp [hentry] at hturn
  | some entry =>
      cases entry with
      | file contents mode => simp [hentry] at hturn
      | directory =>
          rw [hentry] at hturn
          rwa [h.directories here hentry, h.target?]

/-- A walk goes on from the place its first step comes to, or through a link with what is left. -/
theorem walkWith_cons_ok_iff {jump : Location → List String → Except Fault Location}
    {here last : Location} {s : String} {rest : List String} :
    t.walkWith jump here (s :: rest) = .ok last ↔
      (∃ loc, t.turn here s = .ok (.place loc) ∧ t.walkWith jump loc rest = .ok last) ∨
        ∃ start steps, t.turn here s = .ok (.link start steps) ∧
          jump start (steps ++ rest) = .ok last := by
  rw [Tree.walkWith]
  cases t.turn here s with
  | error fault => simp
  | ok x => cases x <;> simp [and_assoc]

theorem KeepsWays.walkWith (h : t.KeepsWays t')
    {jump jump' : Location → List String → Except Fault Location}
    (hjump : ∀ here steps last, jump here steps = .ok last → jump' here steps = .ok last)
    {here last : Location} {steps : List String} (hwalk : t.walkWith jump here steps = .ok last) :
    t'.walkWith jump' here steps = .ok last := by
  induction steps generalizing here with
  | nil => exact hwalk
  | cons s rest ih =>
      rw [walkWith_cons_ok_iff] at hwalk ⊢
      rcases hwalk with ⟨loc, hturn, hrest⟩ | ⟨start, steps, hturn, hjumped⟩
      · exact .inl ⟨loc, h.turn hturn, ih hrest⟩
      · exact .inr ⟨start, steps, h.turn hturn, hjump _ _ _ hjumped⟩

/-- By induction on the links that are left. -/
theorem KeepsWays.walk (h : t.KeepsWays t') {links : Nat} {here last : Location}
    {steps : List String} (hwalk : t.walk links here steps = .ok last) :
    t'.walk links here steps = .ok last := by
  induction links generalizing here last steps with
  | zero => exact h.walkWith (fun _ _ _ harrived => by cases harrived) hwalk
  | succ links ih => exact h.walkWith (fun _ _ _ => ih) hwalk

/-- A path that can be located can be followed. -/
theorem locate_ok_iff {last : Location} :
    t.locate p = .ok last ↔ stepsOf p = .ok p.steps ∧ t.walk maxLinks [] p.steps = .ok last := by
  rw [locate, stepsOf]
  split_ifs <;> simp

theorem KeepsWays.locate (h : t.KeepsWays t') {last : Location} (hp : t.locate p = .ok last) :
    t'.locate p = .ok last := by
  rw [locate_ok_iff] at hp ⊢
  exact ⟨hp.1, h.walk hp.2⟩

/-- What is put elsewhere than over a directory turns no path aside. -/
theorem keepsWays_put (h : t.get? loc ≠ some .directory) (e : Entry) :
    t.KeepsWays (t.put loc e) := by
  have hroot : loc ≠ [] := by
    rintro rfl
    exact h (get?_nil t)
  refine ⟨fun here hentry => ?_, rfl⟩
  have hother : here ≠ loc := by
    rintro rfl
    exact h hentry
  rw [get?_put_of_ne t e hroot hother, hentry]

theorem locate_put (h : t.get? loc ≠ some .directory) (e : Entry) {last : Location}
    (hp : t.locate p = .ok last) : (t.put loc e).locate p = .ok last :=
  (keepsWays_put h e).locate hp

/-- A file that is put somewhere opens no way. -/
theorem keepsWays_of_put_file (h : t.get? loc ≠ some .directory) (contents : Bytes) (mode : Nat) :
    (t.put loc (.file contents mode)).KeepsWays t := by
  have hroot : loc ≠ [] := by
    rintro rfl
    exact h (get?_nil t)
  refine ⟨fun here hentry => ?_, rfl⟩
  rw [get?_put t loc here _ hroot] at hentry
  split_ifs at hentry with hhere
  · cases hentry
  · exact hentry

/-! ## Writing -/

/-- A file can be written at `p`, and `loc` is where it goes. -/
structure Admits (t : Tree) (p : Path) (loc : Location) : Prop where
  located : t.locate p = .ok loc
  named : p.asksForDirectory = false
  free : t.get? loc ≠ some .directory

/-- The permissions that a write leaves. -/
def modeAt (t : Tree) (loc : Location) : Nat :=
  match t.get? loc with
  | some (.file _ mode) => mode
  | _ => newFileMode

theorem Admits.ne_nil (h : t.Admits p loc) : loc ≠ [] := by
  rintro rfl
  exact h.free (get?_nil t)

theorem Admits.write (h : t.Admits p loc) (contents : Bytes) :
    t.write p contents = .ok (t.put loc (.file contents (t.modeAt loc))) := by
  simp only [Tree.write, h.located, h.named, ok_bind, modeAt]
  cases hentry : t.get? loc with
  | none => simp
  | some entry =>
      cases entry with
      | directory => exact absurd hentry h.free
      | file contents' mode => simp

theorem write_ok_iff {contents : Bytes} :
    t.write p contents = .ok t' ↔
      ∃ loc, t.Admits p loc ∧ t' = t.put loc (.file contents (t.modeAt loc)) := by
  constructor
  · intro h
    cases hloc : t.locate p with
    | error fault => simp [Tree.write, hloc, bind, Except.bind] at h
    | ok loc =>
        cases hnamed : p.asksForDirectory with
        | true => simp [Tree.write, hloc, hnamed, bind, Except.bind] at h
        | false =>
            have hfree : t.get? loc ≠ some .directory := by
              intro hentry
              simp [Tree.write, hloc, hnamed, hentry, bind, Except.bind] at h
            have hadmits : t.Admits p loc := ⟨hloc, hnamed, hfree⟩
            rw [hadmits.write] at h
            exact ⟨loc, hadmits, (Except.ok.inj h).symm⟩
  · rintro ⟨loc, hadmits, rfl⟩
    exact hadmits.write contents

/-- The file that a path leads to, where there is one. -/
theorem find_of_file (hlocated : t.locate p = .ok loc) (hnamed : p.asksForDirectory = false)
    {contents : Bytes} {mode : Nat} (hentry : t.get? loc = some (.file contents mode)) :
    t.find p = .ok (.file contents mode) := by
  simp only [find, hlocated, ok_bind, hentry, hnamed]
  rfl

theorem isDirectory_iff :
    t.isDirectory p = true ↔ ∃ loc, t.locate p = .ok loc ∧ t.get? loc = some .directory := by
  rw [isDirectory, find]
  cases hloc : t.locate p with
  | error fault => simp
  | ok loc =>
      cases hentry : t.get? loc with
      | none => simp [hentry]
      | some entry =>
          cases entry with
          | directory => simp [hentry]
          | file contents mode => cases hnamed : p.asksForDirectory <;> simp [hentry]

theorem find_of_isDirectory (h : t.isDirectory p = true) : t.find p = .ok .directory := by
  obtain ⟨loc, hloc, hentry⟩ := isDirectory_iff.mp h
  simp only [find, hloc, ok_bind, hentry]

theorem KeepsWays.isDirectory (h : t.KeepsWays t') (hp : t.isDirectory p = true) :
    t'.isDirectory p = true := by
  obtain ⟨loc, hloc, hentry⟩ := isDirectory_iff.mp hp
  exact isDirectory_iff.mpr ⟨loc, h.locate hloc, h.directories loc hentry⟩

theorem read_of_file (hlocated : t.locate p = .ok loc) (hnamed : p.asksForDirectory = false)
    {contents : Bytes} {mode : Nat} (hentry : t.get? loc = some (.file contents mode)) :
    t.read p = .ok contents := by
  simp only [read, find_of_file hlocated hnamed hentry]
  rfl

theorem find_put_file (h : t.Admits p loc) (contents : Bytes) (mode : Nat) :
    (t.put loc (.file contents mode)).find p = .ok (.file contents mode) :=
  find_of_file (locate_put h.free _ h.located) h.named (get?_put_self t _ h.ne_nil)

/-- A file that is put somewhere neither opens nor bars a place for another. -/
theorem admits_put_file_iff (h : t.get? loc ≠ some .directory) (contents : Bytes) (mode : Nat)
    {q : Path} {loc' : Location} :
    (t.put loc (.file contents mode)).Admits q loc' ↔ t.Admits q loc' := by
  have hways := keepsWays_of_put_file h contents mode
  constructor
  · rintro ⟨hlocated, hnamed, hfree⟩
    exact ⟨hways.locate hlocated, hnamed, fun hentry =>
      hfree ((keepsWays_put h _).directories loc' hentry)⟩
  · rintro ⟨hlocated, hnamed, hfree⟩
    exact ⟨locate_put h _ hlocated, hnamed, fun hentry => hfree (hways.directories loc' hentry)⟩

/-- What was written is read. -/
theorem read_put_file (h : t.Admits p loc) (contents : Bytes) (mode : Nat) :
    (t.put loc (.file contents mode)).read p = .ok contents :=
  read_of_file (locate_put h.free _ h.located) h.named (get?_put_self t _ h.ne_nil)

/-- Where a path to be written leads to nothing, its place is free. -/
theorem Admits.get?_eq_none (h : t.Admits p loc) (hvacant : (t.find p).isOk = false) :
    t.get? loc = none := by
  cases hentry : t.get? loc with
  | none => rfl
  | some entry =>
      cases entry with
      | directory => exact absurd hentry h.free
      | file contents mode =>
          rw [find_of_file h.located h.named hentry] at hvacant
          cases hvacant

theorem chmod_put_file (h : t.Admits p loc) (contents : Bytes) (mode mode' : Nat) :
    (t.put loc (.file contents mode)).chmod p mode' = .ok (t.put loc (.file contents mode')) := by
  simp only [chmod, find_put_file h, locate_put h.free _ h.located]
  exact congrArg Except.ok (put_put t loc _ _)

/-! ## What stays -/

/-- Elsewhere than at the changed locations, the files are the same. No directory has gone, and
the links are the same. Directories may have come. -/
structure KeepsBut (changed : List Location) (before after : Tree) : Prop
    extends KeepsWays before after where
  files : ∀ loc, loc ∉ changed → ∀ contents mode,
    after.get? loc = some (.file contents mode) ↔ before.get? loc = some (.file contents mode)

theorem KeepsWays.refl (t : Tree) : t.KeepsWays t := ⟨fun _ => id, rfl⟩

theorem KeepsWays.trans {t'' : Tree} (h : t.KeepsWays t') (h' : t'.KeepsWays t'') :
    t.KeepsWays t'' :=
  ⟨fun loc hdirectory => h'.directories loc (h.directories loc hdirectory), h'.links.trans h.links⟩

theorem KeepsBut.refl (t : Tree) : KeepsBut [] t t := ⟨.refl t, fun _ _ _ _ => Iff.rfl⟩

theorem KeepsBut.trans {changed changed' : List Location} {t t' t'' : Tree}
    (h : KeepsBut changed t t') (h' : KeepsBut changed' t' t'') :
    KeepsBut (changed ++ changed') t t'' where
  toKeepsWays := h.toKeepsWays.trans h'.toKeepsWays
  files loc hloc contents mode := by
    rw [List.mem_append, not_or] at hloc
    rw [h'.files loc hloc.2, h.files loc hloc.1]

theorem keepsBut_put (h : t.get? loc ≠ some .directory) (contents : Bytes) (mode : Nat) :
    KeepsBut [loc] t (t.put loc (.file contents mode)) := by
  have hroot : loc ≠ [] := by
    rintro rfl
    exact h (get?_nil t)
  refine ⟨keepsWays_put h _, ?_⟩
  intro other hother contents' mode'
  rw [get?_put_of_ne t _ hroot (List.ne_of_not_mem_cons hother)]

/-- A directory is made where nothing was. -/
theorem exists_of_makeDir (h : t.makeDir p = .ok t') :
    ∃ loc, t.get? loc = none ∧ t' = t.put loc .directory := by
  rw [makeDir] at h
  cases hsteps : stepsOf p with
  | error fault => simp [hsteps, bind, Except.bind] at h
  | ok steps =>
      rw [hsteps, ok_bind] at h
      split_ifs at h with hlink
      cases hloc : t.walk maxLinks [] steps with
      | error fault => simp [hloc, bind, Except.bind] at h
      | ok loc =>
          rw [hloc, ok_bind] at h
          cases hentry : t.get? loc with
          | some entry => simp [hentry] at h
          | none =>
              simp only [hentry, Except.ok.injEq] at h
              exact ⟨loc, hentry, h.symm⟩

/-- A new directory takes no file's place. -/
theorem keepsBut_makeDir (h : t.makeDir p = .ok t') : KeepsBut [] t t' := by
  obtain ⟨loc, hentry, rfl⟩ := exists_of_makeDir h
  have hfree : t.get? loc ≠ some .directory := by simp [hentry]
  have hroot : loc ≠ [] := by
    rintro rfl
    exact hfree (get?_nil t)
  refine ⟨keepsWays_put hfree _, ?_⟩
  intro other _ contents mode
  by_cases hother : other = loc
  · subst hother
    simp [get?_put_self t _ hroot, hentry]
  · rw [get?_put_of_ne t _ hroot hother]

/-- Every entry is still there as it was, and the links are the same. Other entries may have
come. -/
structure Retains (before after : Tree) : Prop where
  entries : ∀ loc e, before.get? loc = some e → after.get? loc = some e
  links : after.links = before.links

theorem Retains.refl (t : Tree) : t.Retains t := ⟨fun _ _ => id, rfl⟩

theorem Retains.trans {t'' : Tree} (h : t.Retains t') (h' : t'.Retains t'') : t.Retains t'' :=
  ⟨fun loc e hentry => h'.entries loc e (h.entries loc e hentry), h'.links.trans h.links⟩

theorem Retains.keepsWays (h : t.Retains t') : t.KeepsWays t' :=
  ⟨fun loc => h.entries loc .directory, h.links⟩

theorem KeepsBut.retains (h : KeepsBut [] t t') : t.Retains t' := by
  refine ⟨fun loc e hentry => ?_, h.links⟩
  cases e with
  | directory => exact h.directories loc hentry
  | file contents mode => exact (h.files loc List.not_mem_nil contents mode).mpr hentry

theorem retains_put (h : t.get? loc = none) (e : Entry) : t.Retains (t.put loc e) := by
  have hroot : loc ≠ [] := by
    rintro rfl
    simp at h
  refine ⟨fun other e' hentry => ?_, rfl⟩
  have hother : other ≠ loc := by
    rintro rfl
    rw [h] at hentry
    cases hentry
  rwa [get?_put_of_ne t e hroot hother]

/-- A path that still leads to its place finds there what stays there. -/
theorem find_of_kept {e : Entry} (hways : t.KeepsWays t')
    (hkept : ∀ loc e, t.locate p = .ok loc → t.get? loc = some e → t'.get? loc = some e)
    (hp : t.find p = .ok e) : t'.find p = .ok e := by
  cases hloc : t.locate p with
  | error fault => simp [Tree.find, hloc, bind, Except.bind] at hp
  | ok loc =>
      simp only [Tree.find, hloc, hways.locate hloc, ok_bind] at hp ⊢
      cases hentry : t.get? loc with
      | none => simp [hentry] at hp
      | some entry => rwa [hkept loc entry hloc hentry, ← hentry]

theorem read_of_find {contents : Bytes} (h : ∀ e, t.find p = .ok e → t'.find p = .ok e)
    (hp : t.read p = .ok contents) : t'.read p = .ok contents := by
  cases hfind : t.find p with
  | error fault => simp [Tree.read, hfind, bind, Except.bind] at hp
  | ok e =>
      simp only [Tree.read, hfind, h e hfind] at hp ⊢
      exact hp

/-- What a path led to is found there still. -/
theorem Retains.find {e : Entry} (h : t.Retains t') (hp : t.find p = .ok e) :
    t'.find p = .ok e :=
  find_of_kept h.keepsWays (fun loc e _ => h.entries loc e) hp

theorem Retains.read {contents : Bytes} (h : t.Retains t') (hp : t.read p = .ok contents) :
    t'.read p = .ok contents :=
  read_of_find (fun _ => h.find) hp

/-- A write is not seen by a path that leads elsewhere. -/
theorem Admits.read_put {input : Path} {contents : Bytes} (h : t.Admits p loc)
    (hother : t.locate input ≠ .ok loc) (e : Entry) (hread : t.read input = .ok contents) :
    (t.put loc e).read input = .ok contents := by
  apply read_of_find _ hread
  intro found
  apply find_of_kept (keepsWays_put h.free e)
  intro here entry hlocated hentry
  have hhere : here ≠ loc := by
    rintro rfl
    exact hother hlocated
  rw [get?_put_of_ne t e h.ne_nil hhere, hentry]

end Strongbox.Tree
