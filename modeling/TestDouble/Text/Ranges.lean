/-!
# Ranges of characters

A set of characters is a list of closed ranges of code points. The ranges ascend, so that a lookup
ends at the first range that begins past the character.
-/

namespace TestDouble.Text

/-- Closed ranges of code points, ascending and disjoint. -/
abbrev Ranges := List (Nat × Nat)

/-- Whether some range holds the code point. -/
def Ranges.covers : Ranges → Nat → Bool
  | [], _ => false
  | (first, last) :: rest, n => if n < first then false else n ≤ last || Ranges.covers rest n

end TestDouble.Text
