import TabletopDice.Expression.Reader
import TabletopDice.Draw.Source
import TabletopDice.Roll.Mode

/-!
# Failures

Everything that can keep a request from being answered.  A rejection is the
fault of whoever asked and comes before any draw; the other failures are limits
of the machinery.
-/

namespace TabletopDice

open Text

inductive Rejection where
  | expression (fault : Fault)
  /-- a number of rolls below one, made by `Failure.ofTimes` -/
  | times (times : Int)
  | mode (name : String)
  deriving DecidableEq, Repr

def Rejection.message : Rejection → String
  | .expression f => f.message
  | .times n =>
    "[INVALID_TIMES] Number of rolls must be at least 1, got " ++ decimal n ++
      "."
  | .mode name =>
    "[INVALID_MODE] Unknown mode '" ++ name ++ "'. Use one of: " ++
      ", ".intercalate (Mode.all.map Mode.name) ++ "."

inductive Failure where
  | rejected (rejection : Rejection)
  | tooManyDigits (digits : Nat)
  | unwritable
  | draw (failure : DrawFailure)
  | meanOutOfRange
  deriving DecidableEq, Repr

def Failure.message : Failure → String
  | .rejected r => r.message
  | .tooManyDigits n =>
    "Exceeds the limit (" ++ decimal digitLimit ++
      " digits) for integer string conversion: value has " ++ decimal n ++
      " digits; use sys.set_int_max_str_digits() to increase the limit"
  | .unwritable =>
    "Exceeds the limit (" ++ decimal digitLimit ++
      " digits) for integer string conversion; " ++
      "use sys.set_int_max_str_digits() to increase the limit"
  | .draw d => d.message
  | .meanOutOfRange => "integer division result too large for a float"

/-- Lets a result through if the integers that it shows can be written. -/
def written {α : Type} (writable : Bool) (result : α) : Except Failure α :=
  if writable then .ok result else .error .unwritable

/-- Why a number of rolls is refused.  The message would show the number, so
that one of too many digits is refused without it. -/
def Failure.ofTimes (times : Int) : Failure :=
  if isWritable times then .rejected (.times times) else .unwritable

theorem Failure.ofTimes_of_isWritable {times : Int}
    (htimes : isWritable times = true) :
    ofTimes times = .rejected (.times times) :=
  if_pos htimes

theorem Failure.ofTimes_of_not_isWritable {times : Int}
    (htimes : ¬ isWritable times = true) : ofTimes times = .unwritable :=
  if_neg htimes

/-- A text that is not read as an expression, as a failure of the request that
holds it. -/
def ReadError.failure : ReadError → Failure
  | .fault f => .rejected (.expression f)
  | .tooManyDigits n => .tooManyDigits n

end TabletopDice
