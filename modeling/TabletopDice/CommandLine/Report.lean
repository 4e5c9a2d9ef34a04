import TabletopDice.CommandLine.Settings
import TabletopDice.Draw.Feed
import TabletopDice.Roll.Written
import TabletopDice.Summary

/-!
# Reports

What a run of the command leaves behind: the lines on its two channels and how
it ends.  Rolls are shown one after another, up to the first that cannot be
written.  All of them are shown before the statistics are computed, so that a
mean out of range still leaves the rolls shown.
-/

namespace TabletopDice.CommandLine

open Text

/-- A run exits with a status, or breaks off: with a failure that it does not
handle, or for want of the value of a setting. -/
inductive Ending where
  | exit (status : Nat)
  | broken (failure : Failure)
  | blank (setting : Setting)
  deriving DecidableEq, Repr

structure Report where
  out : List String
  err : List String
  ending : Ending
  deriving DecidableEq, Repr

def printed (lines : List String) : String :=
  String.join (lines.map fun line => line ++ "\n")

/-! ## Log lines -/

def logLine (component text : String) : String :=
  "[DEBUG] [rpg_dice_sim." ++ component ++ "] - " ++ text

/-- The text as it was given and as it is read; a text of blanks is not worth a
line. -/
def normalizedLog (text : String) : List String :=
  if (squeeze text.toList).isEmpty then []
  else
    [logLine "parser"
      ("normalized " ++ quoted text ++ " -> " ++
        quoted (Expression.normalize text))]

def resolutionLog (resolution : Resolution) : String :=
  logLine "dice"
    ("d20 " ++ resolution.mode.name ++ ": rolls " ++
      bracketed [resolution.first, resolution.second] ++ " -> keep " ++
      decimal resolution.kept)

def rejectedLog (text : String) : String :=
  logLine "cli" ("rejected " ++ quoted text)

namespace Settings

/-- Log lines are kept at the most talkative level only. -/
def logged (settings : Settings) (lines : List String) : List String :=
  if settings.level = .value .debug then lines else []

def rollingLog (settings : Settings) (resolutions : List Resolution) :
    List String :=
  normalizedLog settings.expression ++ resolutions.map resolutionLog

/-! ## Lines on the output channel -/

def groups (settings : Settings) (rolls : List Roll) : List (List String) :=
  (rolls.zipIdx 1).map fun (roll, index) => roll.lines index settings.quiet

/-- Groups of lines, with a blank line between two of them unless quiet. -/
def separated (settings : Settings) (groups : List (List String)) : List String :=
  (if settings.quiet then [] else [""]).intercalate groups

def isWritable (settings : Settings) (roll : Roll) : Bool :=
  roll.isWritable settings.quiet

def rollLines (settings : Settings) (rolls : List Roll) : List String :=
  settings.separated (settings.groups rolls)

/-- The rolls before the first that cannot be written, each separated from what
would follow. -/
def writableLines (settings : Settings) (rolls : List Roll) : List String :=
  settings.separated (settings.groups (rolls.takeWhile settings.isWritable) ++ [[]])

def summaryLines (rolls : List Roll) : Except Failure (List String) :=
  if rolls.length ≤ 1 then .ok []
  else (Summary.ofTotals (rolls.map Roll.total)).map fun summary =>
    summary.elim [] fun s => "" :: s.lines

/-- The report of a run whose rolls were made, or failed to be. -/
def report (settings : Settings) (resolutions : List Resolution) :
    Except Failure (List Roll) → Report
  | .ok rolls =>
    let err := settings.logged (settings.rollingLog resolutions)
    if rolls.all settings.isWritable then
      match summaryLines rolls with
      | .ok lines => ⟨settings.rollLines rolls ++ lines, err, .exit 0⟩
      | .error failure => ⟨settings.rollLines rolls, err, .broken failure⟩
    else ⟨settings.writableLines rolls, err, .broken .unwritable⟩
  | .error (.rejected rejection) =>
    let log := settings.rollingLog resolutions ++ [rejectedLog settings.expression]
    ⟨[], settings.logged log ++ ["error: " ++ rejection.message], .exit 1⟩
  | .error failure =>
    ⟨[], settings.logged (settings.rollingLog resolutions), .broken failure⟩

/-- The report of a run that read its expression and then needed the value of a
blank setting. -/
def reportBlank (settings : Settings) (setting : Setting) : Report :=
  ⟨[], settings.logged (settings.rollingLog []), .blank setting⟩

end Settings

/-- What is said when the value of a blank setting is needed. -/
def blankMessage : Setting → String
  | .times => "'<' not supported between instances of 'list' and 'int'"
  | .seed =>
    "The only supported seed types are: None,\n" ++
      "int, float, str, bytes, and bytearray."
  | .logLevel => "attribute name must be string, not 'list'"

/-- The report of a run that never came to roll. -/
def Stop.report : Stop → Report
  | .help => ⟨helpLines, [], .exit 0⟩
  | .refused error => ⟨[], error.lines, .exit 2⟩

end TabletopDice.CommandLine
