import TabletopDice.Text.Blank
import TabletopDice.Text.Digit

/-!
# Written numbers

A number of too many digits is neither read nor written.  There are two readers.
A numeral of an expression is a run of the digits `0` to `9`; one with too many
digits is not converted, and the reader says so.  An integer given as an option
may be padded, signed, written in the digits of any script, and grouped by
single underscores.
-/

namespace TabletopDice.Text

/-- The most digits of a number that is read, leading zeros included, or
written. -/
def digitLimit : Nat := 4300

/-- What a text says when it is read as a run of digits. -/
inductive Numeral where
  | malformed
  | tooLong (digits : Nat)
  | value (n : Nat)
  deriving DecidableEq, Repr

/-- Whether the text consists of one or more of the digits `0` to `9`. -/
def isDigits (cs : List Char) : Bool :=
  !cs.isEmpty && cs.all Char.isDigit

def digitsValue (cs : List Char) : Nat :=
  Nat.ofDigitChars 10 cs 0

def Numeral.read (cs : List Char) : Numeral :=
  if isDigits cs then
    if cs.length ≤ digitLimit then .value (digitsValue cs)
    else .tooLong cs.length
  else .malformed

/-- The digit values of a run in which single underscores may stand between
digits. -/
def groupedDigits? : List Char → Option (List Nat)
  | [] => none
  | [c] => (digitValue? c).map ([·])
  | c :: '_' :: rest => do return (← digitValue? c) :: (← groupedDigits? rest)
  | c :: rest => do return (← digitValue? c) :: (← groupedDigits? rest)

def readGrouped? (cs : List Char) : Option Nat := do
  let digits ← groupedDigits? cs
  if digits.length ≤ digitLimit then
    some (digits.foldl (fun n d => 10 * n + d) 0)
  else none

/-- An optional sign, then a grouped run of digits. -/
def readSigned? : List Char → Option Int
  | '-' :: rest => (readGrouped? rest).map fun n => -(n : Int)
  | '+' :: rest => (readGrouped? rest).map fun n => (n : Int)
  | cs => (readGrouped? cs).map fun n => (n : Int)

/-- The integer written in a text, padding at its ends aside. -/
def readInt? (s : String) : Option Int :=
  readSigned? (trim s.toList)

def decimal (n : Int) : String :=
  n.repr

/-- Whether an integer has few enough digits to be written; a sign is not a
digit. -/
def isWritable (n : Int) : Bool :=
  (Nat.toDigits 10 n.natAbs).length ≤ digitLimit

/-- The decimal text of an integer with a sign in every case. -/
def signedDecimal (n : Int) : String :=
  if n < 0 then decimal n else "+" ++ decimal n

/-- The decimal text of a natural number, filled with zeros to a width. -/
def paddedDecimal (width n : Nat) : String :=
  let digits := Nat.toDigits 10 n
  String.ofList (List.replicate (width - digits.length) '0' ++ digits)

/-- The low `width` hexadecimal digits of a number, most significant first. -/
def hex : (width n : Nat) → List Char
  | 0, _ => []
  | width + 1, n => hex width (n / 16) ++ [(n % 16).digitChar]

end TabletopDice.Text
