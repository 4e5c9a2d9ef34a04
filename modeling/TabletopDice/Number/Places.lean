import TabletopDice.Number.Binary64
import TabletopDice.Text.Numeral

/-!
# Two decimal places

The text of a binary64 number with two digits after the point, rounded from its
exact value.
-/

namespace TabletopDice.Number.Binary64

open Text

/-- The magnitude of a finite number in hundredths, a half going to the even
neighbour. -/
def hundredths (x : Binary64) : Nat :=
  roundQuotient (x.units * 100) (1 <<< 1074)

/-- A finite number keeps its sign even when all digits shown are zero. -/
def twoPlaces (x : Binary64) : String :=
  let sign := if x.negative then "-" else ""
  if x.isFinite then
    sign ++ decimal (x.hundredths / 100) ++ "." ++
      paddedDecimal 2 (x.hundredths % 100)
  else if x.isInfinite then sign ++ "inf"
  else "nan"

end TabletopDice.Number.Binary64
