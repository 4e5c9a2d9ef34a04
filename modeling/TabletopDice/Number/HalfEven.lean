/-!
# Rounding a quotient

The integer nearest to a quotient of natural numbers, where a half goes to the
even neighbour.
-/

namespace TabletopDice.Number

/-- The integer nearest to `a / b`, and of two equally near ones the even one.
-/
def roundQuotient (a b : Nat) : Nat :=
  if 2 * (a % b) < b ∨ (2 * (a % b) = b ∧ (a / b) % 2 = 0) then a / b else a / b + 1

/-- The number of binary digits, none for zero. -/
def bitLength (n : Nat) : Nat :=
  if n = 0 then 0 else n.log2 + 1

end TabletopDice.Number
