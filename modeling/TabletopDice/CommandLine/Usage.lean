import TabletopDice.CommandLine.Switch
import TabletopDice.Text.Quoted

/-!
# Usage

What the command says of itself, and what it says of arguments that it does not
accept.
-/

namespace TabletopDice.CommandLine

open Text

def usageLines : List String := [
  "usage: rpg-dice [-h] [-t TIMES] [--adv | --dis] [-q] [--seed SEED]",
  "                [--log-level \x7bDEBUG,INFO,WARNING,ERROR\x7d]",
  "                expression"]

def helpLines : List String := usageLines ++ [
  "",
  "Roll tabletop dice expressions like 2d6+3, 3d6+2d8-1 or d20+5.",
  "",
  "positional arguments:",
  "  expression            dice expression, e.g. 2d6+3",
  "",
  "options:",
  "  -h, --help            show this help message and exit",
  "  -t TIMES, --times TIMES",
  "                        roll N times and print stats (default: 1)",
  "  --adv                 advantage (only on a lone d20 term)",
  "  --dis                 disadvantage (only on a lone d20 term)",
  "  -q, --quiet           print only the totals",
  "  --seed SEED           seed for reproducible rolls",
  "  --log-level \x7bDEBUG,INFO,WARNING,ERROR\x7d",
  "                        logging level (default: WARNING)"]

inductive LogLevel where
  | debug
  | info
  | warning
  | error
  deriving DecidableEq, Repr

namespace LogLevel

def name : LogLevel → String
  | debug => "DEBUG"
  | info => "INFO"
  | warning => "WARNING"
  | error => "ERROR"

def all : List LogLevel := [debug, info, warning, error]

def ofName? (name : String) : Option LogLevel :=
  all.find? fun level => level.name = name

@[simp] theorem ofName?_name (level : LogLevel) :
    ofName? level.name = some level := by
  cases level <;> rfl

end LogLevel

inductive UsageError where
  | ambiguous (argument : String)
  | noValue (setting : Setting)
  | notInteger (setting : Setting) (value : String)
  | noLevel (value : String)
  | conflict (later earlier : Flag)
  | ignoredValue (flag : Flag) (value : String)
  | noExpression
  | unrecognized (arguments : List String)
  deriving DecidableEq, Repr

def complaint (switch : Switch) (text : String) : String :=
  "argument " ++ switch.label ++ ": " ++ text

def UsageError.message : UsageError → String
  | .ambiguous argument =>
    "ambiguous option: " ++ argument ++ " could match " ++
      ", ".intercalate (Switch.all.map Switch.long)
  | .noValue setting => complaint (.setting setting) "expected one argument"
  | .notInteger setting value =>
    complaint (.setting setting) ("invalid int value: " ++ quoted value)
  | .noLevel value =>
    complaint (.setting .logLevel)
      ("invalid choice: " ++ quoted value ++ " (choose from " ++
        ", ".intercalate (LogLevel.all.map fun level => quoted level.name) ++ ")")
  | .conflict later earlier =>
    complaint (.flag later)
      ("not allowed with argument " ++ Switch.label (.flag earlier))
  | .ignoredValue flag value =>
    complaint (.flag flag) ("ignored explicit argument " ++ quoted value)
  | .noExpression => "the following arguments are required: expression"
  | .unrecognized arguments =>
    "unrecognized arguments: " ++ " ".intercalate arguments

def UsageError.lines (error : UsageError) : List String :=
  usageLines ++ ["rpg-dice: error: " ++ error.message]

end TabletopDice.CommandLine
