/-! Cutting a text at every occurrence of a separator. -/

namespace Strongbox.Text

/-- The pieces of a text between separators, at least one. -/
def pieces (separator : Char) : List Char → List (List Char)
  | [] => [[]]
  | c :: cs =>
    if c = separator then [] :: pieces separator cs
    else
      match pieces separator cs with
      | [] => [[c]]
      | p :: ps => (c :: p) :: ps

end Strongbox.Text
