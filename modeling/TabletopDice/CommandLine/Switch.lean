/-!
# Switches

The switches of the command: flags, which stand alone, and settings, which take
a value.  Every switch has a long name, and some have a letter as well.
-/

namespace TabletopDice.CommandLine

inductive Flag where
  | help
  | advantage
  | disadvantage
  | quiet
  deriving DecidableEq, Repr

inductive Setting where
  | times
  | seed
  | logLevel
  deriving DecidableEq, Repr

inductive Switch where
  | flag (flag : Flag)
  | setting (setting : Setting)
  deriving DecidableEq, Repr

namespace Switch

/-- All switches, in the order in which they are listed to the user. -/
def all : List Switch :=
  [flag .help, setting .times, flag .advantage, flag .disadvantage, flag .quiet,
    setting .seed, setting .logLevel]

/-- The long name, without the two dashes before it. -/
def longName : Switch → String
  | flag .help => "help"
  | setting .times => "times"
  | flag .advantage => "adv"
  | flag .disadvantage => "dis"
  | flag .quiet => "quiet"
  | setting .seed => "seed"
  | setting .logLevel => "log-level"

def letter? : Switch → Option Char
  | flag .help => some 'h'
  | setting .times => some 't'
  | flag .quiet => some 'q'
  | _ => none

def long (switch : Switch) : String :=
  "--" ++ switch.longName

/-- All ways to write the switch, as messages name it. -/
def label (switch : Switch) : String :=
  match switch.letter? with
  | some letter => "-" ++ letter.toString ++ "/" ++ switch.long
  | none => switch.long

def ofLetter? (letter : Char) : Option Switch :=
  all.find? fun switch => switch.letter? = some letter

/-- The switches whose long names start with the given characters. -/
def matching (stem : List Char) : List Switch :=
  all.filter fun switch => stem.isPrefixOf switch.longName.toList

end Switch

end TabletopDice.CommandLine
