/-!
# Sets of code points

A set of code points is given by the points at which membership changes, in
ascending order: the first point is the first member, the second one the first
non-member after it, and so on.
-/

namespace Offside

/-- A set of code points, given by the points at which membership changes. -/
structure CodePointSet where
  /-- The first code points of the runs of members and of non-members after them. -/
  changes : List Nat

namespace CodePointSet

/-- Whether a character is in a set: so many changes lie at or before it. -/
def contains
    (set : CodePointSet)
    (c : Char) :
    Bool :=
  set.changes.countP (· ≤ c.toNat) % 2 == 1

end CodePointSet
end Offside
