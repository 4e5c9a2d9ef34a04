import TabletopDice.Expression.Basic
import TabletopDice.Expression.Fault
import TabletopDice.Expression.Piece

/-!
# Reading an expression

Every piece is a modifier or a dice term, and the first piece that is neither
decides what is wrong with the text.  Besides such a fault there is one more
reason to refuse: a run of digits too long to convert.
-/

namespace TabletopDice

open Text

inductive Term where
  | dice (term : DiceTerm)
  | modifier (modifier : Modifier)
  deriving DecidableEq, Repr

def Term.dice? : Term → Option DiceTerm
  | .dice t => some t
  | .modifier _ => none

def Term.modifier? : Term → Option Modifier
  | .dice _ => none
  | .modifier m => some m

/-- The largest count and the largest number of sides. -/
def maxCount : Nat := 0xFFFFFFFF

/-- The largest modifier of the given sign, as a magnitude. -/
def maxModifier (negative : Bool) : Nat :=
  if negative then 0x80000000 else 0x7FFFFFFF

/-- A minus at the front, and what follows it. -/
def splitMinus : List Char → Bool × List Char
  | '-' :: rest => (true, rest)
  | cs => (false, cs)

/-- A number of dice or of sides; any text that is not such a number is the
given fault. -/
def readCount (fault : Fault) (digits : List Char) : Except ReadError Nat :=
  match Numeral.read digits with
  | .malformed => .error (.fault fault)
  | .tooLong n => .error (.tooManyDigits n)
  | .value n => if n ≤ maxCount then .ok n else .error (.fault fault)

/-- Minus zero is read as zero, with the sign of a positive number. -/
def Modifier.read (piece : List Char) : Except ReadError Modifier :=
  let (negative, digits) := splitMinus piece
  let fault := ReadError.fault (.modifier (String.ofList piece))
  match Numeral.read digits with
  | .malformed => .error fault
  | .tooLong n => .error (.tooManyDigits n)
  | .value n =>
    if n ≤ maxModifier negative then
      .ok { value := n, sign := if negative && n ≠ 0 then -1 else 1 }
    else .error fault

/-- A number of dice, which is one if it is left out. -/
def readDiceCount (fault : Fault) (digits : List Char) : Except ReadError Nat :=
  if digits.isEmpty then .ok 1 else readCount fault digits

/-- The two numbers of a dice term are read in order, and then neither may be
zero. -/
def DiceTerm.read (piece : List Char) (negative : Bool) (count sides : List Char) :
    Except ReadError DiceTerm := do
  let count ← readDiceCount (.count (String.ofList piece)) count
  let sides ← readCount (.sides (String.ofList piece)) sides
  if count = 0 ∨ sides = 0 then
    .error (.fault (.nonPositive (String.ofList piece)))
  else
    .ok { count, sides, sign := if negative then -1 else 1 }

/-- A piece with one `d` is a dice term; one without is a modifier, if it starts
as one. -/
def Term.read (piece : List Char) : Except ReadError Term :=
  let (negative, core) := splitMinus piece
  match core.splitOn 'd' with
  | [_] =>
    if negative || isDigits core then Term.modifier <$> Modifier.read piece
    else .error (.fault (.term (String.ofList piece)))
  | [count, sides] => Term.dice <$> DiceTerm.read piece negative count sides
  | _ => .error (.fault (.term (String.ofList piece)))

namespace Expression

/-- The expression made of the given terms, those of each kind in order. -/
def ofTerms (terms : List Term) : Expression where
  dice := terms.filterMap Term.dice?
  modifiers := terms.filterMap Term.modifier?

theorem ofTerms_append (s t : List Term) :
    ofTerms (s ++ t) =
      ⟨(ofTerms s).dice ++ (ofTerms t).dice,
        (ofTerms s).modifiers ++ (ofTerms t).modifiers⟩ := by
  simp [ofTerms]

def readChars (cs : List Char) : Except ReadError Expression :=
  if (squeeze cs).isEmpty then .error (.fault .empty)
  else
    match (pieces cs).mapM Term.read with
    | .error e => .error e
    | .ok [] => .error (.fault .nothingToRoll)
    | .ok terms => .ok (ofTerms terms)

def read (text : String) : Except ReadError Expression :=
  readChars text.toList

/-- Reads an expression that may be missing; a missing one is read like the
empty text. -/
def readOptional (text : Option String) : Except ReadError Expression :=
  read (text.getD "")

end Expression

end TabletopDice
