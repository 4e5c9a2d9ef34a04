import TabletopDice.Expression.Basic

/-!
# The canonical text of an expression

Dice come before modifiers, each in order, with one space around every sign.
The sign of the first item is written only when it is a minus, and a count of
one is left out.
-/

namespace TabletopDice

open Text

/-- A sign and the text that it stands before. -/
abbrev SignedText := Int × String

def DiceTerm.item (term : DiceTerm) : SignedText :=
  (term.sign,
    (if term.count = 1 then "" else decimal term.count) ++ "d" ++
      decimal term.sides)

def Modifier.item (modifier : Modifier) : SignedText :=
  (modifier.sign, decimal modifier.value)

def Expression.items (expr : Expression) : List SignedText :=
  expr.dice.map DiceTerm.item ++ expr.modifiers.map Modifier.item

/-- The first item, where a plus is left out. -/
def SignedText.leading (item : SignedText) : String :=
  if item.1 < 0 then "- " ++ item.2 else item.2

/-- A later item, with the space before its sign. -/
def SignedText.following (item : SignedText) : String :=
  if item.1 < 0 then " - " ++ item.2 else " + " ++ item.2

def SignedText.joined : List SignedText → String
  | [] => ""
  | first :: rest => first.leading ++ String.join (rest.map SignedText.following)

def Expression.canonical (expr : Expression) : String :=
  SignedText.joined expr.items

end TabletopDice
