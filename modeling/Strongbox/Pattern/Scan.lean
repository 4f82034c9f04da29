import Strongbox.Pattern.Bracket
import Strongbox.Pattern.Opening

/-! Patterns as a whole. A pattern is read from its front, with the groups and brackets
that are open at each place; it is sound if all of them get closed, every part may stand
where it stands, and the nesting is not too deep. -/

namespace Strongbox.Pattern

open Text (Taken)

/-- A group around the place where reading stands. -/
structure Outer where
  /-- The mode in front of the group, which holds again behind it. -/
  mode : Mode
  alternatives : Row
  sequence : Row
deriving DecidableEq, Repr

/-- Where reading stands. -/
structure State where
  mode : Mode := {}
  /-- The names of groups so far. -/
  names : List (List Char) := []
  /-- The alternatives of the innermost group that are complete. -/
  alternatives : Row := {}
  /-- The parts of its last alternative. -/
  sequence : Row := {}
  /-- The depth of the part that a repetition sign would apply to. -/
  last : Option Nat := none
  outer : List Outer := []
  /-- The open brackets, the innermost first. -/
  brackets : List Bracket := []
deriving DecidableEq, Repr

namespace State

/-- The depth of the innermost group's content. -/
def depth (s : State) : Nat := (s.alternatives.add s.sequence.depth).depth

def add (s : State) (depth : Nat) : State :=
  { s with sequence := s.sequence.add depth, last := some depth }

/-- Behind a repetition sign, if there is something to repeat. -/
def repeated? (s : State) : Option State :=
  s.last.map fun depth =>
    { s with sequence := s.sequence.deepen (depth + 1), last := some (depth + 1) }

def alternate (s : State) : State :=
  { s with alternatives := s.alternatives.add s.sequence.depth, sequence := {}, last := none }

/-- Within a group, unless its name has been given before. Switches are a part that cannot
be repeated. -/
def opened? (s : State) : Opening → Option State
  | .switches mode => some { s with mode, sequence := s.sequence.add 0, last := none }
  | .group mode name =>
    if name.all (!s.names.contains ·) then
      some
        { mode
          names := name.toList ++ s.names
          outer := ⟨s.mode, s.alternatives, s.sequence⟩ :: s.outer }
    else none

/-- Behind the innermost group, if one is open. -/
def closed? (s : State) : Option State :=
  match s.outer with
  | [] => none
  | o :: outer =>
    some <| add
      { mode := o.mode
        names := s.names
        alternatives := o.alternatives
        sequence := o.sequence
        outer } (s.depth + 1)

/-- After a step within brackets. -/
def progress (s : State) : Bracket.Progress → State
  | .within b outer => { s with brackets := b :: outer }
  | .closed depth => { s.add depth with brackets := [] }

/-- Reads on outside brackets. A repetition sign may carry a question mark; counted
repetitions are refused, since no closing brace can be part of a pattern. -/
def stepOutside (s : State) (c : Char) (cs : List Char) : Option (Taken State cs) :=
  match c, cs with
  | '(', cs =>
    match Opening.take s.mode cs with
    | none => none
    | some t => (s.opened? t.value).map fun s' => t.map fun _ => s'
  | ')', cs => s.closed?.map (.here · cs)
  | '|', cs => some (.here s.alternate cs)
  | '[', cs => (Bracket.takeOpening s.mode [] cs).map (·.map s.progress)
  | '\x7b', _ => none
  | c, cs =>
    if c = '?' ∨ c = '*' ∨ c = '+' then
      s.repeated?.map fun s' =>
        match cs with
        | '?' :: rest => .one s' '?' rest
        | cs => .here s' cs
    else
      match Atom.take s.mode c cs with
      | none => none
      | some t => if t.value.mayStandAlone s.mode then some (t.map fun _ => s.add 0) else none

def step (s : State) (c : Char) (cs : List Char) : Option (Taken State cs) :=
  match s.brackets with
  | [] => s.stepOutside c cs
  | b :: outer => (b.step s.mode outer c cs).map (·.map s.progress)

def run (s : State) (cs : List Char) : Option State :=
  match _h : s.mode.skip cs with
  | [] => some s
  | c :: rest =>
    match s.step c rest with
    | none => none
    | some t => t.value.run t.rest
termination_by cs.length
decreasing_by
  have h₁ := s.mode.length_skip_le cs
  have h₂ := t.length_rest_le
  rw [_h, List.length_cons] at h₁
  omega

end State

def depthLimit : Nat := 250

def isPattern (cs : List Char) : Bool :=
  match State.run {} cs with
  | some s => s.brackets = [] && s.outer = [] && s.depth ≤ depthLimit
  | none => false

end Strongbox.Pattern
