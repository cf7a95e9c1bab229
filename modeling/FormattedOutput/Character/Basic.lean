/-!
# Sets of characters

A property of characters is kept as a table of runs, as a standard of characters lists it. A run
is given by the numbers of its first and its last character.
-/

namespace FormattedOutput

/-- A set of characters, as runs. -/
structure CharacterSet where
  runs : List (Nat × Nat)
  deriving DecidableEq, Repr

namespace CharacterSet

/-- A character lies in one of the runs. -/
def contains (set : CharacterSet) (c : Char) : Bool :=
  set.runs.any fun (first, last) => first ≤ c.toNat && c.toNat ≤ last

end CharacterSet

end FormattedOutput
