/-!
# Boundaries

A set of numbers is given by its boundaries: the numbers, in increasing order, at which membership
flips. A number belongs to the set if an odd number of boundaries lies at or below it.
-/

namespace PromptRunner.Text

/-- Whether a number belongs to the set with the given boundaries. -/
def insideBoundaries (n : Nat) : List Nat → Bool
  | [] => false
  | b :: bs => if b ≤ n then !insideBoundaries n bs else false

end PromptRunner.Text
