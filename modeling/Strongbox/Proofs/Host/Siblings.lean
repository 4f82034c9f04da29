import Strongbox.Proofs.Host.Tree

/-! # Paths that differ in their endings

Two paths with one stem lead to two places in one directory, or both lead nowhere, unless a link
has one of the names. -/

namespace Strongbox

/-! ## Pieces -/

namespace Text

theorem pieces_of_notMem {separator : Char} {ds : List Char} (h : separator ∉ ds) :
    pieces separator ds = [ds] := by
  induction ds with
  | nil => rfl
  | cons d ds ih =>
      have hd : d ≠ separator := fun heq => h (heq ▸ List.mem_cons_self)
      rw [pieces, if_neg hd, ih fun hmem => h (List.mem_cons_of_mem d hmem)]

/-- An ending without separators goes on with the last piece. -/
theorem pieces_append (separator : Char) (cs : List Char) :
    ∃ front last, ∀ ds, separator ∉ ds → pieces separator (cs ++ ds) = front ++ [last ++ ds] := by
  induction cs with
  | nil => exact ⟨[], [], fun ds hds => pieces_of_notMem hds⟩
  | cons c cs ih =>
      obtain ⟨front, last, hpieces⟩ := ih
      by_cases hc : c = separator
      · refine ⟨[] :: front, last, fun ds hds => ?_⟩
        rw [List.cons_append, pieces, if_pos hc, hpieces ds hds, List.cons_append]
      · cases front with
        | nil =>
            refine ⟨[], c :: last, fun ds hds => ?_⟩
            simp [pieces, hc, hpieces ds hds]
        | cons first front =>
            refine ⟨(c :: first) :: front, last, fun ds hds => ?_⟩
            simp [pieces, hc, hpieces ds hds]

theorem width_append (cs ds : List Char) : width (cs ++ ds) = width cs + width ds := by
  induction cs with
  | nil => simp [width]
  | cons c cs ih => rw [List.cons_append, width, ih, width, Nat.add_assoc]

theorem length_encode_append (s t : String) :
    (encode (s ++ t)).length = (encode s).length + (encode t).length := by
  simp only [length_encode, String.toList_append, width_append]

end Text

/-! ## Endings -/

/-- The ending of a file's name: long enough that no name with it is a dot or two. -/
structure Path.Ending (ending : String) : Prop where
  slash : '/' ∉ ending.toList
  nul : '\x00' ∉ ending.toList
  long : 3 ≤ ending.toList.length

namespace Path

theorem Ending.ne_nil {ending : String} (h : Ending ending) : ending.toList ≠ [] := by
  intro hnil
  have hlong := h.long
  rw [hnil] at hlong
  contradiction

/-- The ending belongs to the last step. -/
theorem steps_append (stem : String) :
    ∃ above last, ∀ ending, Ending ending →
      (Path.mk (stem ++ ending)).steps = above ++ [String.ofList (last ++ ending.toList)] := by
  obtain ⟨front, last, hpieces⟩ := Text.pieces_append '/' stem.toList
  let names := (front.filter (· ≠ [])).map String.ofList
  refine ⟨if stem.toList.head? = some '/' then "/" :: names else names, last, ?_⟩
  intro ending hending
  have hhead : ((stem ++ ending).toList.head? = some '/') = (stem.toList.head? = some '/') := by
    rw [String.toList_append]
    cases hstem : stem.toList with
    | nil =>
        rw [List.nil_append]
        cases hchars : ending.toList with
        | nil => exact absurd hchars hending.ne_nil
        | cons c cs =>
            have hc : c ≠ '/' := by
              rintro rfl
              exact hending.slash (hchars ▸ List.mem_cons_self)
            simp [hc]
    | cons c cs => rfl
  have hlast : [last ++ ending.toList].filter (· ≠ []) = [last ++ ending.toList] :=
    List.filter_cons_of_pos (decide_eq_true (List.append_ne_nil_of_right_ne_nil _ hending.ne_nil))
  simp only [steps, hhead]
  rw [String.toList_append, hpieces _ hending.slash, List.filter_append, hlast]
  split_ifs <;> simp [names]

theorem asksForDirectory_append (stem : String) {ending : String} (h : Ending ending) :
    (Path.mk (stem ++ ending)).asksForDirectory = false := by
  obtain ⟨front, last, hchars⟩ := (List.eq_nil_or_concat ending.toList).resolve_left h.ne_nil
  rw [List.concat_eq_append] at hchars
  rw [asksForDirectory, String.toList_append, hchars, ← List.append_assoc,
    List.getLast?_concat, decide_eq_false_iff_not]
  rintro ⟨⟩
  exact h.slash (by simp [hchars])

theorem name_append_ne {last : List Char} {ending : String} (h : Ending ending) {name : String}
    (hshort : name.toList.length < 3) : String.ofList (last ++ ending.toList) ≠ name := by
  rintro rfl
  have hlong := h.long
  rw [String.toList_ofList, List.length_append] at hshort
  omega

end Path

namespace Tree

/-! ## The last step -/

/-- A walk ends by looking up a name in the directory `here`. Where no link has the name, it
ends at the name itself. -/
structure LooksUp (t : Tree) (here : Location) (s : String) (last : Location) : Prop where
  directory : t.get? here = some .directory
  short : (Text.encode s).length ≤ maxName
  plain : t.target? (here ++ [s]) = none → last = here ++ [s]

section LastStep

variable {t : Tree} {s : String} {here last : Location} {steps : List String}
  {jump : Location → List String → Except Fault Location}

theorem looksUp_of_walkWith_name (hdot : s ≠ ".") (hup : s ≠ "..")
    (h : t.walkWith jump here [s] = .ok last) : t.LooksUp here s last := by
  rw [walkWith, turn] at h
  cases hentry : t.get? here with
  | none => simp [hentry] at h
  | some entry =>
      cases entry with
      | file contents mode => simp [hentry] at h
      | directory =>
          simp only [hentry, hdot, hup, if_false] at h
          by_cases hlong : maxName < (Text.encode s).length
          · simp [hlong] at h
          · refine ⟨hentry, Nat.le_of_not_lt hlong, fun htarget => ?_⟩
            rw [if_neg hlong, htarget] at h
            exact (Except.ok.inj h).symm

/-- What comes before the last name leads to where that is looked up. -/
theorem exists_looksUp_of_walkWith (hdot : s ≠ ".") (hup : s ≠ "..")
    (hjump : ∀ here steps, jump here (steps ++ [s]) = .ok last →
      ∃ mid, jump here steps = .ok mid ∧ t.LooksUp mid s last)
    (h : t.walkWith jump here (steps ++ [s]) = .ok last) :
    ∃ mid, t.walkWith jump here steps = .ok mid ∧ t.LooksUp mid s last := by
  induction steps generalizing here with
  | nil => exact ⟨here, rfl, looksUp_of_walkWith_name hdot hup h⟩
  | cons r rest ih =>
      rw [List.cons_append, walkWith_cons_ok_iff] at h
      rcases h with ⟨loc, hturn, hrest⟩ | ⟨start, target, hturn, hjumped⟩
      · obtain ⟨mid, hmid, hlast⟩ := ih hrest
        exact ⟨mid, walkWith_cons_ok_iff.mpr (.inl ⟨loc, hturn, hmid⟩), hlast⟩
      · rw [← List.append_assoc] at hjumped
        obtain ⟨mid, hmid, hlast⟩ := hjump _ _ hjumped
        exact ⟨mid, walkWith_cons_ok_iff.mpr (.inr ⟨start, target, hturn, hmid⟩), hlast⟩

/-- By induction on the links that are left. -/
theorem exists_looksUp_of_walk (hdot : s ≠ ".") (hup : s ≠ "..") {links : Nat}
    (h : t.walk links here (steps ++ [s]) = .ok last) :
    ∃ mid, t.walk links here steps = .ok mid ∧ t.LooksUp mid s last := by
  induction links generalizing here steps with
  | zero => exact exists_looksUp_of_walkWith hdot hup (fun _ _ h => by cases h) h
  | succ links ih => exact exists_looksUp_of_walkWith hdot hup (fun _ _ => ih) h

theorem turn_of_looksUp (hdot : s ≠ ".") (hup : s ≠ "..") (h : t.LooksUp here s last)
    (hplain : t.target? (here ++ [s]) = none) : t.turn here s = .ok (.place last) := by
  rw [turn, h.directory, h.plain hplain]
  simp only [hdot, hup, if_false, Nat.not_lt.mpr h.short, hplain]

theorem walkWith_of_looksUp (hdot : s ≠ ".") (hup : s ≠ "..")
    (hplain : ∀ here, t.target? (here ++ [s]) = none) {mid : Location}
    (hlast : t.LooksUp mid s last)
    (hjump : ∀ here steps, jump here steps = .ok mid → jump here (steps ++ [s]) = .ok last)
    (h : t.walkWith jump here steps = .ok mid) :
    t.walkWith jump here (steps ++ [s]) = .ok last := by
  induction steps generalizing here with
  | nil =>
      obtain rfl := Except.ok.inj h
      have hturn := turn_of_looksUp hdot hup hlast (hplain here)
      exact walkWith_cons_ok_iff.mpr (.inl ⟨last, hturn, rfl⟩)
  | cons r rest ih =>
      rw [List.cons_append, walkWith_cons_ok_iff]
      rw [walkWith_cons_ok_iff] at h
      rcases h with ⟨loc, hturn, hrest⟩ | ⟨start, target, hturn, hjumped⟩
      · exact .inl ⟨loc, hturn, ih hrest⟩
      · refine .inr ⟨start, target, hturn, ?_⟩
        rw [← List.append_assoc]
        exact hjump _ _ hjumped

/-- A name that no link has can be looked up wherever a walk ends. -/
theorem walk_of_looksUp (hdot : s ≠ ".") (hup : s ≠ "..")
    (hplain : ∀ here, t.target? (here ++ [s]) = none) {mid : Location}
    (hlast : t.LooksUp mid s last) {links : Nat} (h : t.walk links here steps = .ok mid) :
    t.walk links here (steps ++ [s]) = .ok last := by
  induction links generalizing here steps with
  | zero => exact walkWith_of_looksUp hdot hup hplain hlast (fun _ _ h => by cases h) h
  | succ links ih => exact walkWith_of_looksUp hdot hup hplain hlast (fun _ _ => ih) h

end LastStep

/-! ## Names without links -/

/-- No link has the last name of the path. -/
def Unlinked (t : Tree) (p : Path) : Prop := ∀ link ∈ t.links, link.1.getLast? ≠ p.steps.getLast?

theorem Unlinked.target?_eq_none {t : Tree} {p : Path} (h : t.Unlinked p) {front : List String}
    {s : String} (hsteps : p.steps = front ++ [s]) (here : Location) :
    t.target? (here ++ [s]) = none := by
  rw [target?, List.lookup_eq_none_iff]
  intro link hlink
  have hname := h link hlink
  rw [hsteps, List.getLast?_concat] at hname
  rw [bne_iff_ne]
  rintro heq
  rw [← heq, List.getLast?_concat] at hname
  exact hname rfl

theorem unlinked_of_links_eq {t t' : Tree} {p : Path} (h : t.Unlinked p)
    (hlinks : t'.links = t.links) : t'.Unlinked p := by
  rwa [Unlinked, hlinks]

/-! ## Siblings -/

section Siblings

variable {t : Tree} {stem ending ending' : String} {loc loc' : Location}

/-- Endings of one length make no difference to whether a path can be followed. -/
theorem stepsOf_append_ok_iff (h : Path.Ending ending) :
    stepsOf ⟨stem ++ ending⟩ = .ok (Path.mk (stem ++ ending)).steps ↔
      stem.toList.any (· = '\x00') = false ∧
        (Text.encode stem).length + (Text.encode ending).length < maxPath := by
  obtain ⟨above, last, hsteps⟩ := Path.steps_append stem
  have hnul : ending.toList.any (· = '\x00') = false := by
    rw [List.any_eq_false]
    rintro c hc hzero
    exact h.nul (of_decide_eq_true hzero ▸ hc)
  simp only [stepsOf, hsteps ending h, String.toList_append, List.any_append, hnul, Bool.or_false,
    Text.length_encode_append]
  cases stem.toList.any (· = '\x00') with
  | true => simp
  | false => simp

/-- A path that leads to a place for a file has a neighbour with the same stem and another
ending, unless a link has that name. -/
theorem exists_locate_sibling (h : Path.Ending ending) (h' : Path.Ending ending')
    (hlength : (Text.encode ending).length = (Text.encode ending').length)
    (hplain : t.Unlinked ⟨stem ++ ending'⟩) (hloc : t.locate ⟨stem ++ ending⟩ = .ok loc) :
    ∃ loc', t.locate ⟨stem ++ ending'⟩ = .ok loc' := by
  obtain ⟨above, last, hsteps⟩ := Path.steps_append stem
  rw [locate_ok_iff, stepsOf_append_ok_iff h, hsteps ending h] at hloc
  obtain ⟨hfollowed, hwalk⟩ := hloc
  obtain ⟨here, habove, hlast⟩ := exists_looksUp_of_walk (Path.name_append_ne h (by decide))
    (Path.name_append_ne h (by decide)) hwalk
  have hshort : (Text.encode (String.ofList (last ++ ending'.toList))).length ≤ maxName := by
    have hname := hlast.short
    rw [Text.length_encode] at hname hlength ⊢
    rw [Text.length_encode] at hlength
    rw [String.toList_ofList, Text.width_append] at hname ⊢
    omega
  refine ⟨here ++ [String.ofList (last ++ ending'.toList)], ?_⟩
  rw [locate_ok_iff, stepsOf_append_ok_iff h', hsteps ending' h', ← hlength]
  refine ⟨hfollowed, walk_of_looksUp (Path.name_append_ne h' (by decide))
    (Path.name_append_ne h' (by decide)) ?_ ⟨hlast.directory, hshort, fun _ => rfl⟩ habove⟩
  exact hplain.target?_eq_none (hsteps ending' h')

/-- Neighbours lead to two places, unless a link has the name of one of them. -/
theorem locate_sibling_ne (h : Path.Ending ending) (h' : Path.Ending ending')
    (hne : ending ≠ ending') (hplain : t.Unlinked ⟨stem ++ ending⟩)
    (hplain' : t.Unlinked ⟨stem ++ ending'⟩)
    (hloc : t.locate ⟨stem ++ ending⟩ = .ok loc) (hloc' : t.locate ⟨stem ++ ending'⟩ = .ok loc') :
    loc' ≠ loc := by
  obtain ⟨above, last, hsteps⟩ := Path.steps_append stem
  have hends {e : String} (he : Path.Ending e) (hplain : t.Unlinked ⟨stem ++ e⟩) {loc : Location}
      (hloc : t.locate ⟨stem ++ e⟩ = .ok loc) :
      ∃ here, t.walk maxLinks [] above = .ok here ∧
        loc = here ++ [String.ofList (last ++ e.toList)] := by
    rw [locate_ok_iff, hsteps e he] at hloc
    obtain ⟨here, habove, hlast⟩ := exists_looksUp_of_walk (Path.name_append_ne he (by decide))
      (Path.name_append_ne he (by decide)) hloc.2
    exact ⟨here, habove, hlast.plain (hplain.target?_eq_none (hsteps e he) here)⟩
  obtain ⟨here, habove, rfl⟩ := hends h hplain hloc
  obtain ⟨here', habove', rfl⟩ := hends h' hplain' hloc'
  obtain rfl := Except.ok.inj (habove.symm.trans habove')
  intro heq
  have hendings : ending' = ending := by simpa using List.append_cancel_left heq
  exact hne hendings.symm

end Siblings

end Tree

end Strongbox
