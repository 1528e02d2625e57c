/-
  Sets of characters given by ranges of code points.

  Key definitions include:
    * `Beeb.Text.Ranges`
    * `Beeb.Text.Ranges.has`
-/

------------------------------------------------------------
-- Ranges Of Code Points
------------------------------------------------------------

namespace Beeb

namespace Text

/-
  Ranges of code points, each with its first and its last
  member.
-/
abbrev Ranges := List (Nat × Nat)

/- Whether a character lies in one of the ranges. -/
def Ranges.has
    (ranges : Ranges)
    (c : Char) : Bool :=
  ranges.any fun (first, last) =>
    first ≤ c.toNat && c.toNat ≤ last

end Text

end Beeb
