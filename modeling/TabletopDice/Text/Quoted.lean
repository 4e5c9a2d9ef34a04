import TabletopDice.Text.Numeral
import TabletopDice.Text.Printable

/-!
# Quoted text

A text between quotes, on one line: the quote, the backslash and whatever is not
printable are escaped.
-/

namespace TabletopDice.Text

/-- A double quote is used exactly where it avoids escaping an apostrophe. -/
def quoteFor (cs : List Char) : Char :=
  if cs.contains '\'' && !cs.contains '"' then '"' else '\''

/-- The written form of one character between the given quotes. -/
def escape (quote c : Char) : List Char :=
  if c = quote || c = '\\' then ['\\', c]
  else if c = '\n' then ['\\', 'n']
  else if c = '\r' then ['\\', 'r']
  else if c = '\t' then ['\\', 't']
  else if isPrintable c then [c]
  else if c.toNat < 0x100 then '\\' :: 'x' :: hex 2 c.toNat
  else if c.toNat < 0x10000 then '\\' :: 'u' :: hex 4 c.toNat
  else '\\' :: 'U' :: hex 8 c.toNat

def quotedChars (cs : List Char) : List Char :=
  let quote := quoteFor cs
  quote :: cs.flatMap (escape quote) ++ [quote]

def quoted (s : String) : String :=
  String.ofList (quotedChars s.toList)

end TabletopDice.Text
