import TabletopDice.Failure
import TabletopDice.Number.Places
import TabletopDice.Number.Sum

/-!
# Summaries

The number, extremes and mean of a run of totals.  The mean is the binary64
number nearest to the exact quotient, and there is none when that lies out of
range.  A summary is shown only if its extremes have few enough digits to be
written, which is asked after its mean.
-/

namespace TabletopDice

open Text Number

structure Summary where
  count : Int
  least : Int
  greatest : Int
  mean : Binary64
  deriving DecidableEq

/-- The summary of totals whose mean is given, unless that is out of range. -/
def Summary.ofMean (first : Int) (rest : List Int) :
    Option Binary64 → Except Failure (Option Summary)
  | none => .error .meanOutOfRange
  | some mean =>
    .ok (some
      { count := (rest.length + 1 : Nat)
        least := rest.foldl min first
        greatest := rest.foldl max first
        mean })

/-- The summary of some totals, or none for no totals. -/
def Summary.ofTotals : List Int → Except Failure (Option Summary)
  | [] => .ok none
  | first :: rest =>
    ofMean first rest
      (Binary64.ofQuotient? (sum (first :: rest)) (rest.length + 1))

@[simp] theorem Summary.ofTotals_cons (first : Int) (rest : List Int) :
    Summary.ofTotals (first :: rest) =
      ofMean first rest
        (Binary64.ofQuotient? (sum (first :: rest)) (rest.length + 1)) := rfl

def Summary.isWritable (summary : Summary) : Bool :=
  [summary.count, summary.least, summary.greatest].all Text.isWritable

/-- The summary of some totals, the lines of which are to be written. -/
def Summary.checkedOfTotals (totals : List Int) :
    Except Failure (Option Summary) := do
  match ← Summary.ofTotals totals with
  | none => return none
  | some summary => written summary.isWritable (some summary)

def Summary.lines (summary : Summary) : List String :=
  ["=== stats ===",
    "rolls: " ++ decimal summary.count,
    "min:   " ++ decimal summary.least,
    "max:   " ++ decimal summary.greatest,
    "mean:  " ++ summary.mean.twoPlaces]

end TabletopDice
