import TabletopDice.CommandLine.Argument
import TabletopDice.Roll.Mode

/-!
# Settings

What a list of arguments asks of the command.  Arguments are taken from left to
right: each flag and each setting takes effect as soon as it is met, the first
operand is the expression, and whatever is left over is reported when all else
is in order.

A setting with the separator attached to it, as in `--times=--`, is left blank,
which is found out only when its value is needed.  That again is the older rule,
which drops the first separator among the values of every argument; newer readers
of arguments take an attached separator for the value.
-/

namespace TabletopDice.CommandLine

open Text

inductive Entry (α : Type) where
  | blank
  | value (value : α)
  deriving DecidableEq, Repr

structure Choices where
  expression : Option String := none
  times : Entry Int := .value 1
  mode : Mode := .plain
  quiet : Bool := false
  seed : Option (Entry Int) := none
  level : Entry LogLevel := .value .warning
  /-- arguments without a use, in order -/
  extras : List String := []
  /-- whether the last argument was the expression -/
  atExpression : Bool := false
  deriving DecidableEq, Repr

inductive Stop where
  | help
  | refused (error : UsageError)
  deriving DecidableEq, Repr

structure Settings where
  expression : String
  times : Entry Int
  mode : Mode
  quiet : Bool
  seed : Option (Entry Int)
  level : Entry LogLevel
  deriving DecidableEq, Repr

namespace Choices

def raise (flag : Flag) (choices : Choices) : Except Stop Choices :=
  match flag with
  | .help => .error .help
  | .quiet => .ok { choices with quiet := true }
  | .advantage =>
    if choices.mode = .disadvantage then
      .error (.refused (.conflict .advantage .disadvantage))
    else .ok { choices with mode := .advantage }
  | .disadvantage =>
    if choices.mode = .advantage then
      .error (.refused (.conflict .disadvantage .advantage))
    else .ok { choices with mode := .disadvantage }

def raiseAll : List Flag → Choices → Except Stop Choices
  | [], choices => .ok choices
  | flag :: rest, choices => do raiseAll rest (← choices.raise flag)

/-- The last value given to a setting counts. -/
def assign (setting : Setting) (value : String) (choices : Choices) :
    Except Stop Choices :=
  match setting with
  | .times =>
    match readInt? value with
    | some n => .ok { choices with times := .value n }
    | none => .error (.refused (.notInteger .times value))
  | .seed =>
    match readInt? value with
    | some n => .ok { choices with seed := some (.value n) }
    | none => .error (.refused (.notInteger .seed value))
  | .logLevel =>
    match LogLevel.ofName? value with
    | some level => .ok { choices with level := .value level }
    | none => .error (.refused (.noLevel value))

def leaveBlank (setting : Setting) (choices : Choices) : Choices :=
  match setting with
  | .times => { choices with times := .blank }
  | .seed => { choices with seed := some .blank }
  | .logLevel => { choices with level := .blank }

/-- The text attached to a setting is its value, unless it is the separator. -/
def assignAttached (setting : Setting) (text : List Char) (choices : Choices) :
    Except Stop Choices :=
  if text = ['-', '-'] then .ok (choices.leaveBlank setting)
  else choices.assign setting (String.ofList text)

def takeOperand (text : String) (choices : Choices) : Choices :=
  match choices.expression with
  | none => { choices with expression := some text, atExpression := true }
  | some _ =>
    { choices with extras := choices.extras ++ [text], atExpression := false }

def takeUnknown (text : String) (choices : Choices) : Choices :=
  { choices with extras := choices.extras ++ [text], atExpression := false }

/-- Takes the arguments before the separator; a setting without a value takes
the operand after it. -/
def takeAll : List Argument → Choices → Except Stop Choices
  | [], choices => .ok choices
  | .operand text :: rest, choices => takeAll rest (choices.takeOperand text)
  | .unknown text :: rest, choices => takeAll rest (choices.takeUnknown text)
  | .named switch long attached :: rest, choices =>
    match Spelling.read switch long attached with
    | .error e => .error (.refused e)
    | .ok ⟨flags, none⟩ => do
      let choices ← raiseAll flags { choices with atExpression := false }
      takeAll rest choices
    | .ok ⟨flags, some (setting, some text)⟩ => do
      let choices ← raiseAll flags { choices with atExpression := false }
      takeAll rest (← choices.assignAttached setting text)
    | .ok ⟨flags, some (setting, none)⟩ =>
      match rest with
      | .operand value :: rest => do
        let choices ← raiseAll flags { choices with atExpression := false }
        takeAll rest (← choices.assign setting value)
      | _ => .error (.refused (.noValue setting))

/-- Takes the arguments from the separator on, which are all operands.

The separator is dropped if it stands directly behind the expression or in front
of it, and otherwise left over like any other argument. -/
def takeSeparated (after : List String) (choices : Choices) : Choices :=
  match choices.expression, after with
  | none, text :: rest =>
    { choices with expression := some text, extras := choices.extras ++ rest }
  | none, [] => { choices with extras := choices.extras ++ ["--"] }
  | some _, rest =>
    let separator := if choices.atExpression then [] else ["--"]
    { choices with extras := choices.extras ++ separator ++ rest }

/-- The settings chosen, if there is an expression and nothing is left over. -/
def finish (choices : Choices) : Except Stop Settings :=
  match choices.expression with
  | none => .error (.refused .noExpression)
  | some expression =>
    if choices.extras.isEmpty then
      .ok
        { expression
          times := choices.times
          mode := choices.mode
          quiet := choices.quiet
          seed := choices.seed
          level := choices.level }
    else .error (.refused (.unrecognized choices.extras))

end Choices

namespace Settings

/-- The arguments before the first separator, and those after it if there is
one. -/
def splitSeparator (arguments : List String) : List String × Option (List String) :=
  match arguments.dropWhile (· != "--") with
  | [] => (arguments, none)
  | _ :: after => (arguments.takeWhile (· != "--"), some after)

/-- Understands every argument before any takes effect. -/
def understand (arguments : List String) : Except Stop (List Argument) :=
  (arguments.mapM Argument.read).mapError Stop.refused

def read (arguments : List String) : Except Stop Settings := do
  let (before, after) := splitSeparator arguments
  let choices ← Choices.takeAll (← understand before) {}
  match after with
  | none => choices.finish
  | some rest => (choices.takeSeparated rest).finish

end Settings

end TabletopDice.CommandLine
