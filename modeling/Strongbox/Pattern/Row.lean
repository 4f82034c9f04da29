/-! How deep a pattern is nested. Parts in a row are one level deeper than the deepest of
them, except that a single part is no row. -/

namespace Strongbox.Pattern

structure Row where
  parts : Nat := 0
  /-- The depth of the deepest part. -/
  deepest : Nat := 0
deriving DecidableEq, Repr

namespace Row

/-- The row with one more part of a given depth. -/
def add (r : Row) (depth : Nat) : Row := ⟨r.parts + 1, max r.deepest depth⟩

/-- The row after one of its parts has become as deep as `depth`. -/
def deepen (r : Row) (depth : Nat) : Row := ⟨r.parts, max r.deepest depth⟩

def depth (r : Row) : Nat := if r.parts ≤ 1 then r.deepest else r.deepest + 1

end Row

end Strongbox.Pattern
