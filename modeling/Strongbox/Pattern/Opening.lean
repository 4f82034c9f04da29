import Strongbox.Pattern.Mode
import Strongbox.Text.Alphabetic
import Strongbox.Text.Numeric
import Strongbox.Text.Taken

/-! What a parenthesis opens. -/

namespace Strongbox.Pattern

open Text (Taken)

inductive Opening where
  /-- Switches for the rest of the group around them. -/
  | switches (m : Mode)
  /-- A group that is read in a mode of its own. -/
  | group (m : Mode) (name : Option (List Char))

namespace Opening

/-- Whether a group may have this name. -/
def isName : List Char → Bool
  | [] => false
  | c :: cs =>
    (c = '_' || Text.isAlphabetic c)
      && cs.all fun c => ['_', '.', '[', ']'].contains c || Text.isAlphabetic c || Text.isNumeric c

/-- Reads a group's name up to its closing angle. -/
def takeName (m : Mode) (cs : List Char) : Option (Taken Opening cs) :=
  match h : cs.dropWhile (· ≠ '>') with
  | [] => none
  | _ :: rest =>
    let name := cs.takeWhile (· ≠ '>')
    if isName name then
      some ⟨group m (some name), rest, by
        have := (List.dropWhile_suffix (l := cs) (· ≠ '>')).length_le
        rw [h, List.length_cons] at this
        omega⟩
    else none

/-- Reads switches up to the end of the parenthesis or to the colon in front of a group. -/
def takeSwitches (m : Mode) (cs : List Char) : Option (Taken Opening cs) :=
  let letters := cs.takeWhile fun c => c ≠ ':' ∧ c ≠ ')'
  match h : cs.dropWhile fun c => c ≠ ':' ∧ c ≠ ')' with
  | [] => none
  | c :: rest =>
    match m.switch? letters with
    | none => none
    | some m' =>
      have shorter : rest.length ≤ cs.length := by
        have := (List.dropWhile_suffix (l := cs) fun c => c ≠ ':' ∧ c ≠ ')').length_le
        rw [h, List.length_cons] at this
        omega
      if c = ':' then some ⟨group m' none, rest, shorter⟩
      else if letters = [] then none
      else some ⟨switches m', rest, shorter⟩

/-- Reads what stands behind a parenthesis as far as it says what was opened. -/
def take (m : Mode) (cs : List Char) : Option (Taken Opening cs) :=
  match h : m.skip cs with
  | '?' :: 'P' :: '<' :: rest =>
    (takeName m rest).map (·.widen (Mode.length_le_of_skip ['?', 'P', '<'] rest h))
  | '?' :: '<' :: rest =>
    (takeName m rest).map (·.widen (Mode.length_le_of_skip ['?', '<'] rest h))
  | '?' :: rest => (takeSwitches m rest).map (·.widen (Mode.length_le_of_skip ['?'] rest h))
  | _ => some (.here (group m none) cs)

end Opening

end Strongbox.Pattern
