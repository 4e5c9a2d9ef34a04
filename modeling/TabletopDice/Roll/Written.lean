import TabletopDice.Failure
import TabletopDice.Roll.Basic

/-!
# Writing rolls

A roll can be made whose subtotals or total have more digits than are ever
written.  Here a roll is written only if every integer that its text shows can
be.
-/

namespace TabletopDice

open Text

def Detail.isWritable (detail : Detail) : Bool :=
  [detail.term.count, detail.term.sides, detail.subtotal].all Text.isWritable &&
    detail.rolls.all Text.isWritable

namespace Roll

/-- Whether all integers of a roll can be written; a quiet one shows its total
only. -/
def isWritable (roll : Roll) (quiet : Bool) : Bool :=
  Text.isWritable roll.total &&
    (quiet ||
      roll.details.all Detail.isWritable && Text.isWritable roll.flatTotal)

/-- The roll itself, the lines of whose details are to be written. -/
def checked (roll : Roll) : Except Failure Roll :=
  written (roll.details.all Detail.isWritable) roll

def present (roll : Roll) (index : Int) (quiet : Bool) :
    Except Failure (List String) :=
  written (roll.isWritable quiet) (roll.lines index quiet)

def explain (roll : Roll) : Except Failure String :=
  written (roll.isWritable false) roll.phrase

end Roll

end TabletopDice
