import Strongbox.Text.Blank

/-! The switches that hold at a place of a pattern, and the blanks and comments that a
spaced pattern may contain. -/

namespace Strongbox.Pattern

/-- How a pattern is read from some place on. -/
structure Mode where
  /-- Blanks and comments count for nothing. -/
  spaced : Bool := false
  /-- Letters stand for both cases. -/
  folded : Bool := false
  /-- The pattern is about characters, and otherwise about bytes. -/
  unicode : Bool := true
deriving DecidableEq, Repr

/-- The text behind blanks and comments. A comment runs from a number sign to the end of
its line. -/
def skipBlanks (inComment : Bool) : List Char → List Char
  | [] => []
  | c :: cs =>
    if inComment then skipBlanks (c ≠ '\n') cs
    else if Text.isBlank c then skipBlanks false cs
    else if c = '#' then skipBlanks true cs
    else c :: cs

theorem length_skipBlanks_le (inComment : Bool) (cs : List Char) :
    (skipBlanks inComment cs).length ≤ cs.length := by
  fun_induction skipBlanks inComment cs with
  | case1 => exact Nat.le_refl _
  | case2 c cs ih => exact Nat.le_succ_of_le ih
  | case3 _ c cs _ _ ih => exact Nat.le_succ_of_le ih
  | case4 _ cs _ _ ih => exact Nat.le_succ_of_le ih
  | case5 => exact Nat.le_refl _

namespace Mode

/-- The text from the next thing on that counts. -/
def skip (m : Mode) (cs : List Char) : List Char := if m.spaced then skipBlanks false cs else cs

theorem length_skip_le (m : Mode) (cs : List Char) : (m.skip cs).length ≤ cs.length := by
  unfold skip
  split
  · exact length_skipBlanks_le false cs
  · exact Nat.le_refl _

/-- What stands behind a front of what counts is no longer than the text. -/
theorem length_le_of_skip {m : Mode} {cs : List Char} (front rest : List Char)
    (h : m.skip cs = front ++ rest) : rest.length ≤ cs.length := by
  have hle := m.length_skip_le cs
  rw [h, List.length_append] at hle
  exact Nat.le_trans (Nat.le_add_left _ _) hle

/-- A look ahead, which passes blanks and one number sign, and sees the very next
character if there is nothing else. -/
def peek? (m : Mode) (cs : List Char) : Option Char :=
  if m.spaced then
    match cs.dropWhile Text.isBlank with
    | [] => cs.head?
    | '#' :: rest => (rest.dropWhile Text.isBlank).head?.or cs.head?
    | c :: _ => some c
  else cs.head?

/-- The letters of switches, and the sign that turns off those behind it. -/
def switchLetters : List Char := ['i', 'm', 's', 'u', 'x', 'R', 'U', '-']

/-- The mode behind a list of switches. Each is named at most once, and the minus sign
has one behind it. -/
def switch? (m : Mode) (letters : List Char) : Option Mode :=
  if letters.all (switchLetters.contains ·) ∧ letters.Nodup ∧ letters.getLast? ≠ some '-' then
    let on := letters.takeWhile (· ≠ '-')
    let state (before : Bool) (c : Char) : Bool :=
      on.contains c || (before && !letters.contains c)
    some {
      spaced := state m.spaced 'x'
      folded := state m.folded 'i'
      unicode := state m.unicode 'u' }
  else none

end Mode

end Strongbox.Pattern
