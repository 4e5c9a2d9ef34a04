/-!
# Sums

The sum of a list of integers.
-/

namespace TabletopDice.Number

def sum (values : List Int) : Int :=
  values.foldr (· + ·) 0

@[simp] theorem sum_nil : sum [] = 0 := rfl

@[simp] theorem sum_cons (value : Int) (values : List Int) :
    sum (value :: values) = value + sum values := rfl

@[simp] theorem sum_append (s t : List Int) : sum (s ++ t) = sum s + sum t := by
  induction s with
  | nil => simp
  | cons value s ih => simp [ih, Int.add_assoc]

end TabletopDice.Number
