import Strongbox.Host
import Strongbox.Text.Encoded

/-! A tree of files and directories, as a table from locations to entries, and the
links in it. Paths are followed name by name and link by link; what a path leads
to decides how each request on it ends.

The root is the working directory. Relative paths do not lead out of it, and
absolute ones lead to places of their own under the name `/`; only links join the
two. Links are symbolic. A file with a second name is a file under one of its names
and a link under the other, which amounts to the same for requests that neither
remove nor rename. Devices, pipes and sockets are left out, and so are owners, times
and the right to look or to write. -/

namespace Strongbox

/-- The names that lead from the root to an entry. -/
abbrev Location := List String

inductive Entry where
  | directory
  | file (contents : Bytes) (mode : Nat)
deriving DecidableEq

structure Tree where
  entries : List (Location × Entry) := []
  /-- Where the links are, and the paths they stand for. -/
  links : List (Location × Path) := []

namespace Tree

/-- The entry at a location; the root is always a directory. -/
def get? (t : Tree) (loc : Location) : Option Entry :=
  if loc = [] then some .directory else t.entries.lookup loc

/-- Puts an entry at a location, in place of what was there. -/
def put (t : Tree) (loc : Location) (e : Entry) : Tree :=
  { t with entries := (loc, e) :: t.entries.filter fun x => x.1 ≠ loc }

theorem lookup_filter_ne {entries : List (Location × Entry)} {loc other : Location}
    (h : other ≠ loc) :
    (entries.filter fun x => x.1 ≠ loc).lookup other = entries.lookup other := by
  induction entries with
  | nil => rfl
  | cons x rest ih =>
    obtain ⟨l, e⟩ := x
    by_cases hl : l = loc
    · simp [hl, List.lookup_cons] at ih ⊢
      rw [ih, show (other == loc) = false by simp [h]]
    · by_cases ho : other = l
      · simp [hl, ho]
      · have ho' : (other == l) = false := by simp [ho]
        simp [hl, List.lookup_cons, ho'] at ih ⊢
        exact ih

theorem get?_put (t : Tree) (loc other : Location) (e : Entry) (h : loc ≠ []) :
    (t.put loc e).get? other = if other = loc then some e else t.get? other := by
  by_cases hr : other = []
  · simp [get?, hr, h.symm]
  · by_cases ho : other = loc
    · simp [get?, put, ho, h]
    · have ho' : (other == loc) = false := by simp [ho]
      simp only [get?, put, hr, if_false, ho, List.lookup_cons, ho']
      exact lookup_filter_ne ho

/-- The longest name a directory can hold, in bytes. -/
def maxName : Nat := 255

/-- Paths of this many bytes or more are refused whole. -/
def maxPath : Nat := 4096

/-- A path leads through this many links at most. -/
def maxLinks : Nat := 40

/-- The path that the link at a location stands for, where there is a link. -/
def target? (t : Tree) (loc : Location) : Option Path := t.links.lookup loc

/-- One step up. The top of the absolute paths is its own parent. -/
def above (loc : Location) : Location := if loc = ["/"] then loc else loc.dropLast

/-- Where the target of a link begins that is found in `here`. -/
def targetStart (here : Location) (target : Path) : Location :=
  if target.text.toList.head? = some '/' then [] else here

/-- What one step comes to: a place, or a link with the steps it stands for and where they
begin. -/
inductive Turn where
  | place (loc : Location)
  | link (start : Location) (steps : List String)

/-- Takes one step, which needs a directory to start from. There may be nothing at the
location it comes to. -/
def turn (t : Tree) (here : Location) (s : String) : Except Fault Turn :=
  match t.get? here with
  | none => .error .notFound
  | some (.file ..) => .error .notDirectory
  | some .directory =>
    if s = "." then .ok (.place here)
    else if s = ".." then .ok (.place (above here))
    else if maxName < (Text.encode s).length then .error .nameTooLong
    else
      match t.target? (here ++ [s]) with
      | some target => .ok (.link (targetStart here target) target.wholeSteps)
      | none => .ok (.place (here ++ [s]))

/-- Follows `steps` from the location `here`. At a link, `jump` goes on, with the steps
of its target before the others. -/
def walkWith (t : Tree) (jump : Location → List String → Except Fault Location)
    (here : Location) : List String → Except Fault Location
  | [] => .ok here
  | s :: rest =>
    match t.turn here s with
    | .error fault => .error fault
    | .ok (.place loc) => walkWith t jump loc rest
    | .ok (.link start steps) => jump start (steps ++ rest)

/-- Follows steps through at most so many links. -/
def walk (t : Tree) : (links : Nat) → Location → List String → Except Fault Location
  | 0 => walkWith t fun _ _ => .error .tooManyLinks
  | links + 1 => walkWith t (walk t links)

/-- The steps of a path that can be followed at all. -/
def stepsOf (p : Path) : Except Fault (List String) :=
  if p.text.toList.any (· = '\x00') then .error .invalidName
  else if p.steps = [] then .error .notFound
  else if maxPath ≤ (Text.encode p.text).length then .error .nameTooLong
  else .ok p.steps

def locate (t : Tree) (p : Path) : Except Fault Location := do
  t.walk maxLinks [] (← stepsOf p)

/-- The existing entry that a path leads to. -/
def find (t : Tree) (p : Path) : Except Fault Entry := do
  match t.get? (← t.locate p) with
  | none => .error .notFound
  | some .directory => .ok .directory
  | some (.file contents mode) =>
    if p.asksForDirectory then .error .notDirectory else .ok (.file contents mode)

def isDirectory (t : Tree) (p : Path) : Bool := t.find p matches .ok .directory

def read (t : Tree) (p : Path) : Except Fault Bytes := do
  match ← t.find p with
  | .directory => .error .isDirectory
  | .file contents _ => .ok contents

def newFileMode : Nat := 0o644

/-- The tree with a file's contents replaced, or with a new file; a replaced file
keeps its permissions. -/
def write (t : Tree) (p : Path) (contents : Bytes) : Except Fault Tree := do
  let loc ← t.locate p
  if p.asksForDirectory then .error .isDirectory
  else
    match t.get? loc with
    | some .directory => .error .isDirectory
    | some (.file _ mode) => .ok (t.put loc (.file contents mode))
    | none => .ok (t.put loc (.file contents newFileMode))

def chmod (t : Tree) (p : Path) (mode : Nat) : Except Fault Tree := do
  match ← t.find p with
  | .directory => .ok t
  | .file contents _ => return t.put (← t.locate p) (.file contents mode)

/-- Whether the last of the steps is the name of a link. -/
def endsInLink (t : Tree) (steps : List String) : Bool :=
  match steps.getLast?, t.walk maxLinks [] steps.dropLast with
  | some s, .ok here => (t.target? (here ++ [s])).isSome
  | _, _ => false

/-- The tree with a new directory. A link that has its name already is not followed. -/
def makeDir (t : Tree) (p : Path) : Except Fault Tree := do
  let steps ← stepsOf p
  if t.endsInLink steps then .error .alreadyExists
  else
    let loc ← t.walk maxLinks [] steps
    match t.get? loc with
    | some _ => .error .alreadyExists
    | none => .ok (t.put loc .directory)

/-- Everything in the tree, directories before their contents and names in order. -/
def listing (t : Tree) : List (Location × Entry) :=
  t.entries.mergeSort fun a b => decide (¬ b.1 < a.1)

end Tree

end Strongbox
