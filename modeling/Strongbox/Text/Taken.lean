/-! Reading from the front of a text. What is left is never longer than the text was, so
that a reader can be repeated until nothing is left. -/

namespace Strongbox.Text

/-- What was read from the front of `cs`, and the rest of it. -/
structure Taken (α : Type) (cs : List Char) where
  value : α
  rest : List Char
  length_rest_le : rest.length ≤ cs.length

namespace Taken

/-- Nothing is read. -/
def here {α : Type} (a : α) (cs : List Char) : Taken α cs := ⟨a, cs, Nat.le_refl _⟩

/-- One character is read. -/
def one {α : Type} (a : α) (c : Char) (cs : List Char) : Taken α (c :: cs) :=
  ⟨a, cs, Nat.le_succ _⟩

/-- The same reading, as one of a text that has more in front. -/
def widen {α : Type} {cs text : List Char} (t : Taken α cs) (h : cs.length ≤ text.length) :
    Taken α text :=
  ⟨t.value, t.rest, Nat.le_trans t.length_rest_le h⟩

/-- The same reading, behind one more character. -/
def behind {α : Type} {cs : List Char} (c : Char) (t : Taken α cs) : Taken α (c :: cs) :=
  t.widen (Nat.le_succ _)

def map {α β : Type} {cs : List Char} (f : α → β) (t : Taken α cs) : Taken β cs :=
  ⟨f t.value, t.rest, t.length_rest_le⟩

end Taken

end Strongbox.Text
