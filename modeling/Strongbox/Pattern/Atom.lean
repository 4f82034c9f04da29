import Strongbox.Hex
import Strongbox.Pattern.Mode
import Strongbox.Text.Taken

/-! The smallest parts of a pattern, and the escapes that stand for some of them. -/

namespace Strongbox.Pattern

open Text (Taken)

inductive Atom where
  /-- One character; `byte` if it is given by the number of a byte. -/
  | literal (c : Char) (byte : Bool)
  /-- Any character but a line feed. -/
  | any
  /-- The start or the end of the text or of a line. -/
  | edge
  /-- The start or the end of a word, or their absence. -/
  | wordEdge
  /-- Digits, blanks or the characters of words, or all others. -/
  | family (negated : Bool)
deriving DecidableEq, Repr

namespace Atom

/-- Whether an atom may stand by itself. Folding and the families of characters need
tables that exist for bytes alone; bytes must not break up characters. -/
def mayStandAlone (m : Mode) : Atom → Bool
  | literal c byte => if m.unicode then !m.folded else !byte || c.toNat < 128
  | any => m.unicode
  | edge => true
  | wordEdge => !m.unicode
  | family negated => !m.unicode && !negated

def mayBeMember (m : Mode) : Atom → Bool
  | literal c _ => if m.unicode then !m.folded else c.toNat < 128
  | family negated => !m.unicode && !negated
  | _ => false

def isRange : Atom → Atom → Bool
  | literal first _, literal last _ => first ≤ last
  | _, _ => false

/-- Reads a number of hexadecimal digits behind those that have the value `n`. -/
def takeHex (m : Mode) : (count n : Nat) → (cs : List Char) → Option (Taken Nat cs)
  | 0, n, cs => some (.here n cs)
  | count + 1, n, cs =>
    match h : m.skip cs with
    | [] => none
    | c :: rest =>
      match Hex.valueOfCode? c.toNat with
      | none => none
      | some d => (takeHex m count (16 * n + d) rest).map fun t => t.widen <| by
          have := m.length_skip_le cs
          rw [h, List.length_cons] at this
          omega

/-- The character of a code point in hexadecimal digits. -/
def takeCodePoint (m : Mode) (count : Nat) (byte : Bool) (cs : List Char) :
    Option (Taken Atom cs) :=
  match takeHex m count 0 cs with
  | none => none
  | some t =>
    if t.value.isValidChar then some (t.map fun n => literal (Char.ofNat n) byte) else none

/-- The atom that a character stands for behind a backslash. Signs stand for themselves. -/
def ofEscape? : Char → Option Atom
  | 'a' => some (literal '\x07' false)
  | 'f' => some (literal '\x0c' false)
  | 'n' => some (literal '\n' false)
  | 'r' => some (literal '\r' false)
  | 't' => some (literal '\t' false)
  | 'v' => some (literal '\x0b' false)
  | 'A' | 'z' => some edge
  | 'b' | 'B' | '<' | '>' => some wordEdge
  | 'd' | 's' | 'w' => some (family false)
  | 'D' | 'S' | 'W' => some (family true)
  | c => if c.toNat < 128 && !c.isAlphanum then some (literal c false) else none

def takeEscape (m : Mode) : (cs : List Char) → Option (Taken Atom cs)
  | [] => none
  | 'x' :: cs => (takeCodePoint m 2 true cs).map (·.behind 'x')
  | 'u' :: cs => (takeCodePoint m 4 false cs).map (·.behind 'u')
  | 'U' :: cs => (takeCodePoint m 8 false cs).map (·.behind 'U')
  | c :: cs => (ofEscape? c).map (.one · c cs)

/-- Reads a member of brackets, where signs stand for themselves. -/
def takeMember (m : Mode) (c : Char) (cs : List Char) : Option (Taken Atom cs) :=
  if c = '\\' then takeEscape m cs else some (.here (literal c false) cs)

def take (m : Mode) (c : Char) (cs : List Char) : Option (Taken Atom cs) :=
  match c with
  | '\\' => takeEscape m cs
  | '.' => some (.here any cs)
  | '^' | '$' => some (.here edge cs)
  | c => some (.here (literal c false) cs)

end Atom

end Strongbox.Pattern
