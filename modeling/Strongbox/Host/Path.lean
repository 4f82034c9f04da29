import Strongbox.Text.Pieces

/-! File names as the command line gives them. Two spellings name the same path
when their components agree; repeated separators and inner dots do not count. -/

namespace Strongbox

structure Path where
  text : String
deriving DecidableEq, Repr

namespace Path

/-- The names between separators, one after another, dots included. -/
def steps (p : Path) : List String :=
  let names := ((Text.pieces '/' p.text.toList).filter (· ≠ [])).map String.ofList
  if p.text.toList.head? = some '/' then "/" :: names else names

/-- The steps without dots, except for a dot at the very front. -/
def components (p : Path) : List String :=
  match p.steps with
  | [] => []
  | s :: rest => s :: rest.filter (· ≠ ".")

/-- The path through the given components. -/
def ofComponents (components : List String) : Path := ⟨"/".intercalate components⟩

/-- The directories above a path, the nearest first. -/
def ancestors (p : Path) : List Path :=
  let parts := p.components
  (List.range (parts.length - 1)).reverse.map fun k => ofComponents (parts.take (k + 1))

/-- A path that ends in a separator asks for a directory. -/
def asksForDirectory (p : Path) : Bool := p.text.toList.getLast? = some '/'

/-- The steps of a path that is taken whole: a separator at its end counts as a dot. -/
def wholeSteps (p : Path) : List String :=
  if p.asksForDirectory then p.steps ++ ["."] else p.steps

/-- The path `-` stands for standard input or output. -/
def isStandard (p : Path) : Bool := p.components = ["-"]

/-- A name below a directory; an absolute name replaces the directory. -/
def join (dir : Path) (name : String) : Path :=
  if name.toList.head? = some '/' then ⟨name⟩
  else if dir.text = "" ∨ dir.asksForDirectory then ⟨dir.text ++ name⟩
  else ⟨dir.text ++ "/" ++ name⟩

end Path

end Strongbox
