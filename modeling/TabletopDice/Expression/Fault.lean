/-!
# Faults

What can be wrong with the text of an expression.  A message starts with the
stable name of the kind of fault and quotes the piece at fault as it was read.
-/

namespace TabletopDice

/-- What is wrong with a text that is no dice expression; the piece at fault is
kept as written. -/
inductive Fault where
  | empty
  | nothingToRoll
  | modifier (piece : String)
  | term (piece : String)
  | count (piece : String)
  | sides (piece : String)
  | nonPositive (piece : String)
  deriving DecidableEq, Repr

/-- The stable name of a kind of fault. -/
def Fault.code : Fault → String
  | .empty => "EMPTY_EXPRESSION"
  | .nothingToRoll => "NOTHING_TO_ROLL"
  | .modifier _ => "INVALID_FLAT_MODIFIER"
  | .term _ => "MALFORMED_TERM"
  | .count _ => "INVALID_COUNT"
  | .sides _ => "INVALID_SIDES"
  | .nonPositive _ => "NON_POSITIVE_VALUE"

def Fault.explanation : Fault → String
  | .empty => "Empty expression."
  | .nothingToRoll => "No dice or modifiers found."
  | .modifier piece => "Invalid modifier '" ++ piece ++ "'."
  | .term piece => "Could not understand term '" ++ piece ++ "'."
  | .count piece => "Invalid dice count in '" ++ piece ++ "'."
  | .sides piece => "Invalid number of sides in '" ++ piece ++ "'."
  | .nonPositive piece =>
    "Dice count and sides must be greater than zero in '" ++ piece ++ "'."

def Fault.message (fault : Fault) : String :=
  "[" ++ fault.code ++ "] " ++ fault.explanation ++
    " Example: '2d6 + 3' or 'd20 + 5'."

inductive ReadError where
  | fault (fault : Fault)
  | tooManyDigits (digits : Nat)
  deriving DecidableEq, Repr

end TabletopDice
