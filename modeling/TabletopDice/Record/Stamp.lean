import TabletopDice.Text.Numeral

/-!
# Stamps

When a record was made, and the identifiers that tell it from all others.  Both
come from outside: nothing here reads a clock or makes up an identifier.
-/

namespace TabletopDice

open Text

/-- A point in time of the universal calendar, to the second. -/
structure Moment where
  year : Nat
  month : Nat
  day : Nat
  hour : Nat
  minute : Nat
  second : Nat
  deriving DecidableEq, Repr

/-- Date and time of day, with the letter for the universal zone. -/
def Moment.text (m : Moment) : String :=
  paddedDecimal 4 m.year ++ "-" ++ paddedDecimal 2 m.month ++ "-" ++
    paddedDecimal 2 m.day ++ "T" ++ paddedDecimal 2 m.hour ++ ":" ++
    paddedDecimal 2 m.minute ++ ":" ++ paddedDecimal 2 m.second ++ "Z"

/-- A number of 128 bits that is not given out twice. -/
abbrev Identifier := BitVec 128

namespace Identifier

def digits (id : Identifier) : List Char :=
  hex 32 id.toNat

def plain (id : Identifier) : String :=
  String.ofList id.digits

/-- The hexadecimal digits in groups of 8, 4, 4, 4 and 12. -/
def dashed (id : Identifier) : String :=
  let group (start size : Nat) := String.ofList ((id.digits.drop start).take size)
  "-".intercalate [group 0 8, group 8 4, group 12 4, group 16 4, group 20 12]

end Identifier

/-- What makes a record unlike all others. -/
structure Stamp where
  request : Identifier
  moment : Moment
  nonce : Identifier
  deriving DecidableEq

end TabletopDice
