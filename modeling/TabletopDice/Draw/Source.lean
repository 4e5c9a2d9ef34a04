import TabletopDice.Text.Numeral

/-!
# Sources of integers

A source answers requests for an integer between two bounds.  It may refuse, and
it has a state that goes on in either case.  Nothing forces an answer to lie
within the bounds: that is a property of some sources, not of all.
-/

namespace TabletopDice

open Text

/-- A request for an integer from `low` to `high`, both included. -/
structure Request where
  low : Int
  high : Int
  deriving DecidableEq, Repr

inductive DrawFailure where
  | exhausted
  | emptyRange (request : Request)
  deriving DecidableEq, Repr

def DrawFailure.message : DrawFailure → String
  | .exhausted => ""
  | .emptyRange r =>
    "empty range for randrange() (" ++ decimal r.low ++ ", " ++
      decimal (r.high + 1) ++ ", " ++ decimal (r.high + 1 - r.low) ++ ")"

structure Source (σ : Type) where
  draw : Request → σ → Except DrawFailure Int × σ

namespace Source

/-- The values of a script, one after the other, whatever is asked for. -/
def script : Source (List Int) where
  draw
    | _, [] => (.error .exhausted, [])
    | _, value :: rest => (.ok value, rest)

/-- The answer number `k` is `start + k * step`, folded into the range asked
for. -/
def linear (start step : Int) : Source Nat where
  draw request k :=
    let width := request.high - request.low + 1
    let answer :=
      if request.high < request.low then request.low
      else request.low + (start + k * step).emod width
    (.ok answer, k + 1)

end Source

end TabletopDice
