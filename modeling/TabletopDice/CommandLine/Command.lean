import TabletopDice.CommandLine.Report
import TabletopDice.Draw.Twister
import TabletopDice.Roll.Throw

/-!
# The command

Reads the arguments, rolls, and reports.  A seed replaces the source at hand by
a generator of its own.  The values of settings are needed in turn: the log
level and the seed before the expression is read, and the number of rolls after
it.
-/

namespace TabletopDice.CommandLine

open Rolling

variable {σ : Type}

namespace Settings

def readExpression (settings : Settings) : Except Failure Expression :=
  (Expression.read settings.expression).mapError ReadError.failure

def roll (source : Source σ) (settings : Settings) (times : Int) :
    Rolling σ (List Roll) := do
  let expr ← require settings.readExpression
  expr.rollMany source times settings.mode.name

/-- Rolls against a source and reports, with the feed as the run leaves it. -/
def play (source : Source σ) (settings : Settings) (feed : Feed σ) :
    Report × Feed σ :=
  match settings.times with
  | .value times =>
    match settings.roll source times feed with
    | .ok rolls feed =>
      (settings.report feed.resolutions.toList (.ok rolls), feed)
    | .error failure feed =>
      (settings.report feed.resolutions.toList (.error failure), feed)
  | .blank =>
    match settings.readExpression with
    | .ok _ => (settings.reportBlank .times, feed)
    | .error failure => (settings.report [] (.error failure), feed)

end Settings

/-- Runs the command on its arguments, with the source to use in the absence of
a seed. -/
def run (source : Source σ) (start : σ) (arguments : List String) :
    Report × Feed σ :=
  match Settings.read arguments with
  | .error stop => (stop.report, .initial start)
  | .ok settings =>
    match settings.level, settings.seed with
    | .blank, _ => (⟨[], [], .blank .logLevel⟩, .initial start)
    | _, some .blank => (⟨[], [], .blank .seed⟩, .initial start)
    | _, none => settings.play source (.initial start)
    | _, some (.value seed) =>
      ((settings.play Source.twister (.initial (Twister.ofSeed seed))).1,
        .initial start)

end TabletopDice.CommandLine
