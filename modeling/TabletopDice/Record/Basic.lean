import TabletopDice.Expression.Canonical
import TabletopDice.Record.Stamp
import TabletopDice.Roll.Throw
import TabletopDice.Roll.Written
import TabletopDice.Summary

/-!
# Records

The full account of an order for rolls: what was asked, how it was understood,
every roll, and the summary, under a stamp.
-/

namespace TabletopDice

open Rolling

structure Order where
  expression : String
  mode : String := "none"
  times : Int := 1
  deriving DecidableEq, Repr

structure Record where
  stamp : Stamp
  order : Order
  canonical : String
  rolls : List Roll
  summary : Option Summary
  explanation : String
  deriving DecidableEq

def Record.totals (record : Record) : List Int :=
  record.rolls.map Roll.total

def Record.sourceName : String := "secrets.SystemRandom"

namespace Order

variable {σ : Type}

/-- Reads the expression, rolls it, and writes the record, with an explanation
of the last roll. -/
def fulfil (source : Source σ) (stamp : Stamp) (order : Order) :
    Rolling σ Record := do
  let expr ←
    require ((Expression.read order.expression).mapError ReadError.failure)
  let rolls ← expr.rollMany source order.times order.mode
  let summary ← require (Summary.ofTotals (rolls.map Roll.total))
  let explanation ← require (rolls.getLast?.elim (.ok "") Roll.explain)
  return { stamp, order, rolls, summary, explanation, canonical := expr.canonical }

end Order

end TabletopDice
