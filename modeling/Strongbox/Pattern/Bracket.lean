import Strongbox.Pattern.Atom
import Strongbox.Pattern.Row

/-! Brackets, which list the characters that one place of a pattern accepts: single ones,
ranges, named classes and brackets within, joined by operations on sets. -/

namespace Strongbox.Pattern

open Text (Taken)

structure Bracket where
  /-- Whether nothing but dashes stands behind the opening. -/
  opening : Bool := true
  /-- The depth of what stands in front of the last operation, if there is one. -/
  operand : Option Nat := none
  /-- The members since then. -/
  members : Row := {}
deriving DecidableEq, Repr

/-- Where reading stands within brackets. -/
inductive Bracket.Progress where
  | within (innermost : Bracket) (outer : List Bracket)
  | closed (depth : Nat)

namespace Bracket

def depth (b : Bracket) : Nat :=
  match b.operand with
  | none => b.members.depth
  | some d => max d b.members.depth + 1

def add (b : Bracket) (depth : Nat) : Bracket :=
  { b with opening := false, members := b.members.add depth }

/-- The brackets behind an operation, whose second operand is still to come. -/
def operate (b : Bracket) : Bracket := { opening := false, operand := some b.depth }

def close (depth : Nat) : List Bracket → Progress
  | [] => .closed depth
  | b :: outer => .within (b.add depth) outer

def classNames : List String :=
  ["alnum", "alpha", "ascii", "blank", "cntrl", "digit", "graph", "lower", "print", "punct",
    "space", "upper", "word", "xdigit"]

/-- Reads the name of a class up to `:]`. -/
def takeName (cs : List Char) : Option (Taken Unit cs) :=
  match h : cs.dropWhile (· ≠ ':') with
  | ':' :: ']' :: rest =>
    if classNames.contains (String.ofList (cs.takeWhile (· ≠ ':'))) then
      some ⟨(), rest, by
        have := (List.dropWhile_suffix (l := cs) (· ≠ ':')).length_le
        rw [h] at this
        simp only [List.length_cons] at this
        omega⟩
    else none
  | _ => none

/-- Reads a named class behind its bracket, and whether it stands for all others. -/
def takeNamed : (cs : List Char) → Option (Taken Bool cs)
  | ':' :: '^' :: cs => (takeName cs).map fun t => (t.map fun _ => true).widen (by simp; omega)
  | ':' :: cs => (takeName cs).map fun t => (t.map fun _ => false).widen (by simp)
  | _ => none

/-- Reads the sign behind an opening bracket that makes it stand for all others. -/
def takeNegation (m : Mode) (cs : List Char) : Taken Bool cs :=
  match h : m.skip cs with
  | '^' :: rest => ⟨true, rest, by
      have := m.length_skip_le cs
      rw [h, List.length_cons] at this
      omega⟩
  | _ => .here false cs

/-- Reads one character or a range. A dash in front of a closing bracket or of another
dash makes no range. -/
def takeMember (m : Mode) (c : Char) (cs : List Char) : Option (Taken Unit cs) :=
  match Atom.takeMember m c cs with
  | none => none
  | some first =>
    if !first.value.mayBeMember m then none
    else
      match h : m.skip first.rest with
      | '-' :: behind =>
        if m.peek? behind = some ']' ∨ m.peek? behind = some '-' then some (first.map fun _ => ())
        else
          match h' : m.skip behind with
          | [] => none
          | d :: rest =>
            match Atom.takeMember m d rest with
            | none => none
            | some last =>
              if last.value.mayBeMember m && first.value.isRange last.value then
                some ⟨(), last.rest, by
                  have h₁ := first.length_rest_le
                  have h₂ := m.length_skip_le first.rest
                  have h₃ := m.length_skip_le behind
                  have h₄ := last.length_rest_le
                  rw [h, List.length_cons] at h₂
                  rw [h', List.length_cons] at h₃
                  omega⟩
              else none
      | _ => some (first.map fun _ => ())

/-- Whether a class or brackets that are perhaps negated may stand here. A negated set of
bytes would break up characters. -/
def mayNegate (m : Mode) (negated : Bool) : Bool := m.unicode || !negated

def takeOpening (m : Mode) (outer : List Bracket) (cs : List Char) : Option (Taken Progress cs) :=
  let negation := takeNegation m cs
  if mayNegate m negation.value then some (negation.map fun _ => .within {} outer) else none

/-- Reads on within brackets from a character that counts. -/
def step (m : Mode) (b : Bracket) (outer : List Bracket) (c : Char) (cs : List Char) :
    Option (Taken Progress cs) :=
  if b.opening ∧ (c = '-' ∨ c = ']' ∧ b.members.parts = 0) then
    if (Atom.literal c false).mayBeMember m then
      some (.here (.within { b.add 0 with opening := c = '-' } outer) cs)
    else none
  else
    match c, cs with
    | ']', cs => some (.here (close (b.depth + 1) outer) cs)
    | '[', cs =>
      match takeNamed cs with
      | some t =>
        if mayNegate m t.value && !(m.unicode && m.folded) then
          some (t.map fun _ => .within (b.add 0) outer)
        else none
      | none => takeOpening m (b :: outer) cs
    | '&', '&' :: rest => some (.one (.within b.operate outer) '&' rest)
    | '-', '-' :: rest => some (.one (.within b.operate outer) '-' rest)
    | '~', '~' :: rest => some (.one (.within b.operate outer) '~' rest)
    | c, cs => (takeMember m c cs).map fun t => t.map fun _ => .within (b.add 0) outer

end Bracket

end Strongbox.Pattern
