import TabletopDice.Number.Sum
import TabletopDice.Text.Numeral

/-!
# Dice expressions

An expression is a sum of dice terms and flat modifiers.  Each carries its own
sign, and nothing is assumed of the numbers in it: the reader of expressions
produces positive counts and sides only, but an expression may be built by hand.
-/

namespace TabletopDice

open Text

structure DiceTerm where
  count : Int
  sides : Int
  sign : Int := 1
  deriving DecidableEq, Repr

structure Modifier where
  value : Int
  sign : Int := 1
  deriving DecidableEq, Repr

structure Expression where
  dice : List DiceTerm
  modifiers : List Modifier
  deriving DecidableEq, Repr

/-- The term with its sign and count in full. -/
def DiceTerm.label (term : DiceTerm) : String :=
  (if 0 ≤ term.sign then "+" else "-") ++ decimal term.count ++ "d" ++
    decimal term.sides

def Modifier.signed (modifier : Modifier) : Int :=
  modifier.sign * modifier.value

def Expression.flatTotal (expr : Expression) : Int :=
  Number.sum (expr.modifiers.map Modifier.signed)

end TabletopDice
