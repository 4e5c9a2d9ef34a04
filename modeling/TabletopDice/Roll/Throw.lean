import TabletopDice.Draw.Feed
import TabletopDice.Roll.Basic

/-!
# Throwing dice

Rolls an expression against a source.  Terms are rolled in order and dice one by
one.  A single twenty-sided die is the only one that a mode touches: two of them
are plain dice.
-/

namespace TabletopDice

open Rolling

variable {σ : Type}

def DiceTerm.isLoneD20 (term : DiceTerm) : Bool :=
  term.sides = 20 ∧ term.count = 1

/-- Rolls a twenty-sided die twice and keeps one of the two. -/
def keepOne (source : Source σ) (mode : Mode) (choose : Int → Int → Int) :
    Rolling σ Int := do
  let first ← draw source 1 20
  let second ← draw source 1 20
  let kept := choose first second
  resolve { mode, first, second, kept }
  return kept

/-- The dice of a term; a count below one rolls none. -/
def DiceTerm.throwDice (source : Source σ) (mode : Mode) (term : DiceTerm) :
    Rolling σ (List Int) :=
  match mode.choice?, term.isLoneD20 with
  | some choose, true => repeated 1 (keepOne source mode choose)
  | _, _ => repeated term.count.toNat (draw source 1 term.sides)

def Detail.ofRolls (term : DiceTerm) (rolls : List Int) : Detail where
  term := term
  rolls := rolls
  subtotal := term.sign * Number.sum rolls

def DiceTerm.throw (source : Source σ) (mode : Mode) (term : DiceTerm) :
    Rolling σ Detail :=
  Detail.ofRolls term <$> term.throwDice source mode

def Roll.ofDetails (details : List Detail) (flatTotal : Int) : Roll where
  details := details
  flatTotal := flatTotal
  total := Number.sum (details.map Detail.subtotal) + flatTotal

namespace Expression

def throw (source : Source σ) (mode : Mode) (expr : Expression) :
    Rolling σ Roll := do
  let details ← expr.dice.mapM (DiceTerm.throw source mode)
  return Roll.ofDetails details expr.flatTotal

def checkMode (name : String) : Except Failure Mode :=
  match Mode.ofName? name with
  | some mode => .ok mode
  | none => .error (.rejected (.mode name))

def checkTimes (times : Int) : Except Failure Nat :=
  if times < 1 then .error (.ofTimes times) else .ok times.toNat

def roll (source : Source σ) (expr : Expression) (mode : String) :
    Rolling σ Roll := do
  let mode ← require (checkMode mode)
  expr.throw source mode

def rollMany (source : Source σ) (expr : Expression) (times : Int)
    (mode : String) : Rolling σ (List Roll) := do
  let times ← require (checkTimes times)
  let mode ← require (checkMode mode)
  repeated times (expr.throw source mode)

end Expression

end TabletopDice
