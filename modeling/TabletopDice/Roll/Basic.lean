import TabletopDice.Expression.Basic

/-!
# Rolls

What came of rolling an expression once: the dice of each term with their
subtotal, the sum of the modifiers, and the total.
-/

namespace TabletopDice

open Text

structure Detail where
  term : DiceTerm
  rolls : List Int
  subtotal : Int
  deriving DecidableEq, Repr

structure Roll where
  details : List Detail
  flatTotal : Int
  total : Int
  deriving DecidableEq, Repr

def bracketed (values : List Int) : String :=
  "[" ++ ", ".intercalate (values.map decimal) ++ "]"

def Detail.line (detail : Detail) : String :=
  detail.term.label ++ ": " ++ bracketed detail.rolls ++ " = " ++
    decimal detail.subtotal

/-- The lines that show a roll; a quiet one shows its total only. -/
def Roll.lines (roll : Roll) (index : Int) (quiet : Bool) : List String :=
  let total := "total: " ++ decimal roll.total
  if quiet then [total]
  else
    ["--- roll " ++ decimal index ++ " ---"] ++ roll.details.map Detail.line ++
      (if roll.flatTotal = 0 then [] else ["mods: " ++ decimal roll.flatTotal]) ++
      [total]

/-- The roll as one phrase: its details, the modifiers if they change anything,
and the total. -/
def Roll.phrase (roll : Roll) : String :=
  let mods :=
    if roll.flatTotal = 0 then [] else ["mods " ++ signedDecimal roll.flatTotal]
  "; ".intercalate (roll.details.map Detail.line ++ mods) ++ " => " ++
    decimal roll.total

end TabletopDice
