import TabletopDice.Proofs.Agreement
import TabletopDice.Proofs.Output
import TabletopDice.Proofs.PairedDraws

/-!
# What the log tells

At the most talkative level a run of the command writes a log in front of what
it has to say otherwise, and does nothing else differently.  The log shows the
expression as it is read, then every pair of draws of which one is kept, also if
the source fails later, and at last the expression again if it is rejected.  A
seed that is left blank breaks a run off before it reads the expression, so
there is no log then, at any level.
-/

namespace TabletopDice

open Text Rolling

variable {σ α : Type}

theorem Follows.snd_outcome {source : Source σ} {action : Rolling σ α}
    {plan : List Request} {result : List ℤ → α}
    {resolved : List ℤ → List Resolution}
    (haction : Follows source action plan result resolved) (feed : Feed σ) :
    (outcome action feed).2 =
      let reply := source.ask plan feed.state
      feed.after plan reply (resolved reply.answers) := by
  unfold outcome
  rw [haction.run feed]
  dsimp only
  cases (source.ask plan feed.state).refusal with
  | none => rfl
  | some failure => rfl

namespace CommandLine

/-! ## Log lines -/

def normalizedLine (text : String) : String :=
  "[DEBUG] [rpg_dice_sim.parser] - normalized " ++ quoted text ++ " -> " ++
    quoted (Expression.normalize text)

def pairLine (mode : Mode) (pair : ℤ × ℤ) : String :=
  "[DEBUG] [rpg_dice_sim.dice] - d20 " ++ mode.name ++ ": rolls [" ++
    decimal pair.1 ++ ", " ++ decimal pair.2 ++ "] -> keep " ++
    decimal (mode.kept pair)

def rejectedLine (text : String) : String :=
  "[DEBUG] [rpg_dice_sim.cli] - rejected " ++ quoted text

/-- One report is another with a log in front of what that one has to say. -/
structure Report.AddsLog (report : Report) (log : List String)
    (other : Report) : Prop where
  out : report.out = other.out
  err : report.err = log ++ other.err
  ending : report.ending = other.ending

theorem normalizedLog_eq (text : String) :
    normalizedLog text =
      if squeeze text.toList ≠ [] then [normalizedLine text] else [] := by
  have hline : logLine "parser" ("normalized " ++ quoted text ++ " -> " ++
      quoted (Expression.normalize text)) = normalizedLine text := by
    unfold normalizedLine logLine
    apply String.toList_inj.mp
    simp
  unfold normalizedLog
  rw [hline]
  by_cases hblank : squeeze text.toList = [] <;> simp [hblank]

theorem rejectedLog_eq (text : String) :
    rejectedLog text = rejectedLine text := by
  unfold rejectedLog rejectedLine logLine
  apply String.toList_inj.mp
  simp

theorem resolutionLog_resolution (mode : Mode) (pair : ℤ × ℤ) :
    resolutionLog (mode.resolution pair) = pairLine mode pair := by
  unfold resolutionLog pairLine logLine Mode.resolution bracketed
  apply String.toList_inj.mp
  simp

namespace Settings

/-! ## What a run throws and draws -/

def atLevel (settings : Settings) (level : LogLevel) : Settings :=
  { settings with level := .value level }

/-- The terms to be thrown, those of one roll after those of another; none if
the run does not get as far as to roll. -/
def thrown (settings : Settings) : List DiceTerm :=
  match Expression.read settings.expression, settings.times with
  | .ok expr, .value times => expr.repeatedDice times.toNat
  | _, _ => []

def plan (settings : Settings) : List Request :=
  settings.thrown.flatMap (DiceTerm.requests settings.mode)

/-- The answers up to the first request that is refused. -/
def draws (settings : Settings) (supply : Supply) : List ℤ :=
  (supply.source.ask settings.plan supply.start).answers

def pairs (settings : Settings) (supply : Supply) : List (ℤ × ℤ) :=
  pairedDraws settings.mode settings.thrown (settings.draws supply)

def log (settings : Settings) (supply : Supply) (ending : Ending) :
    List String :=
  (if squeeze settings.expression.toList ≠ [] then
    [normalizedLine settings.expression] else []) ++
  (settings.pairs supply).map (pairLine settings.mode) ++
  (if ending = .exit 1 then [rejectedLine settings.expression] else [])

variable (settings : Settings)

theorem snd_outcome_roll (source : Source σ) (start : σ) {times : ℤ}
    (htimes : settings.times = .value times) :
    let after := (outcome (settings.roll source times) (.initial start)).2
    after.requests.toList =
        settings.plan.take ((settings.draws ⟨source, start⟩).length + 1) ∧
      after.resolutions.toList =
        (settings.pairs ⟨source, start⟩).map settings.mode.resolution := by
  unfold pairs draws plan thrown
  rw [htimes]
  cases hread : Expression.read settings.expression with
  | error e =>
      have hfailed := roll_of_read_error source times (.initial start) hread
      rw [outcome_of_error hfailed]
      exact ⟨rfl, rfl⟩
  | ok expr =>
      dsimp only
      rw [roll_of_read_ok source times hread]
      -- A number of rolls below one is refused, and no term is thrown then.
      by_cases hnone : times < 1
      · have hfailed := expr.rollMany_of_times_lt source hnone
          settings.mode.name (.initial start)
        rw [outcome_of_error hfailed, Int.toNat_of_nonpos (by omega)]
        exact ⟨rfl, rfl⟩
      · have hfollows :=
          (expr.follows_throw source settings.mode).repeated times.toNat
        rw [Expression.rollMany_of_ofName?_some source expr (by omega)
            settings.mode.ofName?_name, hfollows.snd_outcome,
          expr.flatMap_requests_repeatedDice,
          ← expr.flatMap_resolutions_blocks]
        simp [Feed.after, Feed.initial]

/-! ## Reports and the log -/

theorem logged_atLevel_debug (lines : List String) :
    (settings.atLevel .debug).logged lines = lines :=
  if_pos rfl

theorem logged_atLevel_of_ne {level : LogLevel} (hlevel : level ≠ .debug)
    (lines : List String) : (settings.atLevel level).logged lines = [] :=
  if_neg fun heq => hlevel (Entry.value.inj heq)

theorem report_addsLog {level : LogLevel} (hlevel : level ≠ .debug)
    (resolutions : List Resolution) (result : Except Failure (List Roll)) :
    let report := (settings.atLevel .debug).report resolutions result
    report.AddsLog
      (settings.rollingLog resolutions ++
        (if report.ending = .exit 1 then [rejectedLog settings.expression]
          else []))
      ((settings.atLevel level).report resolutions result) := by
  have hdebug := settings.logged_atLevel_debug
  have hother := settings.logged_atLevel_of_ne hlevel
  have hlog : (settings.atLevel .debug).rollingLog resolutions =
      settings.rollingLog resolutions := rfl
  have hwritable : (settings.atLevel .debug).isWritable =
      (settings.atLevel level).isWritable := rfl
  unfold report
  cases result with
  | ok rolls =>
      dsimp only
      rw [hdebug, hother, hlog, hwritable]
      split
      next =>
          cases summaryLines rolls with
          | ok lines => exact ⟨rfl, by simp, rfl⟩
          | error failure => exact ⟨rfl, by simp, rfl⟩
      next => exact ⟨rfl, by simp, rfl⟩
  | error failure =>
      cases failure with
      | rejected rejection =>
          dsimp only
          rw [hdebug, hother, hlog]
          exact ⟨rfl, by simp [atLevel], rfl⟩
      | _ =>
          dsimp only
          rw [hdebug, hother, hlog]
          exact ⟨rfl, by simp, rfl⟩

theorem reportBlank_addsLog {level : LogLevel} (hlevel : level ≠ .debug)
    (setting : Setting) :
    let report := (settings.atLevel .debug).reportBlank setting
    report.AddsLog
      (settings.rollingLog [] ++
        (if report.ending = .exit 1 then [rejectedLog settings.expression]
          else []))
      ((settings.atLevel level).reportBlank setting) := by
  have hlog : (settings.atLevel .debug).rollingLog [] =
      settings.rollingLog [] := rfl
  unfold reportBlank
  dsimp only
  rw [settings.logged_atLevel_debug, settings.logged_atLevel_of_ne hlevel, hlog]
  exact ⟨rfl, by simp, rfl⟩

theorem log_eq (supply : Supply) (ending : Ending) :
    settings.log supply ending =
      settings.rollingLog
          ((settings.pairs supply).map settings.mode.resolution) ++
        (if ending = .exit 1 then [rejectedLog settings.expression]
          else []) := by
  unfold log rollingLog
  rw [normalizedLog_eq, rejectedLog_eq, List.map_map]
  have hpair : pairLine settings.mode =
      resolutionLog ∘ settings.mode.resolution :=
    funext fun pair => (resolutionLog_resolution settings.mode pair).symm
  rw [hpair]

/-! ## Runs and the log -/

theorem play_of_times_eq_value {source : Source σ} {feed : Feed σ} {times : ℤ}
    (htimes : settings.times = .value times) :
    settings.play source feed =
      let rolled := outcome (settings.roll source times) feed
      (settings.report rolled.2.resolutions.toList rolled.1, rolled.2) := by
  cases hrolls : settings.roll source times feed with
  | ok rolls after =>
      rw [outcome_of_ok hrolls]
      exact play_of_roll_ok htimes hrolls
  | error failure after =>
      rw [outcome_of_error hrolls]
      exact play_of_roll_error htimes hrolls

theorem play_of_blank_of_ok {source : Source σ} {feed : Feed σ}
    {expr : Expression} (htimes : settings.times = .blank)
    (hread : settings.readExpression = .ok expr) :
    settings.play source feed = (settings.reportBlank .times, feed) := by
  unfold play
  rw [htimes, hread]

theorem play_of_blank_of_error {source : Source σ} {feed : Feed σ}
    {failure : Failure} (htimes : settings.times = .blank)
    (hread : settings.readExpression = .error failure) :
    settings.play source feed =
      (settings.report [] (.error failure), feed) := by
  unfold play
  rw [htimes, hread]

theorem pairs_of_times_eq_blank (supply : Supply)
    (htimes : settings.times = .blank) :
    settings.plan = [] ∧ settings.pairs supply = [] := by
  have hthrown : settings.thrown = [] := by
    unfold thrown
    rw [htimes]
    cases Expression.read settings.expression <;> rfl
  unfold pairs plan
  rw [hthrown]
  exact ⟨rfl, rfl⟩

/-- Playing at the most talkative level adds the log and changes nothing else.
The requests are those for the terms to be thrown, up to the first that is
refused. -/
theorem play_addsLog (source : Source σ) (start : σ) {level : LogLevel}
    (hlevel : level ≠ .debug) :
    let verbose := (settings.atLevel .debug).play source (.initial start)
    let other := (settings.atLevel level).play source (.initial start)
    verbose.1.AddsLog (settings.log ⟨source, start⟩ verbose.1.ending) other.1 ∧
      verbose.2 = other.2 ∧
      other.2.requests.toList =
        settings.plan.take ((settings.draws ⟨source, start⟩).length + 1) := by
  dsimp only
  rw [log_eq]
  cases htimes : settings.times with
  | value times =>
      obtain ⟨hrequests, hresolutions⟩ :=
        settings.snd_outcome_roll source start htimes
      -- The rolls do not depend on the level, only the report does.
      have hplay (level : LogLevel) :
          (settings.atLevel level).play source (.initial start) =
            let rolled := outcome (settings.roll source times) (.initial start)
            ((settings.atLevel level).report rolled.2.resolutions.toList
              rolled.1, rolled.2) :=
        (settings.atLevel level).play_of_times_eq_value htimes
      rw [hplay, hplay, ← hresolutions]
      exact ⟨settings.report_addsLog hlevel _ _, rfl, hrequests⟩
  | blank =>
      obtain ⟨hplan, hpairs⟩ :=
        settings.pairs_of_times_eq_blank ⟨source, start⟩ htimes
      rw [hpairs, hplan]
      cases hread : settings.readExpression with
      | ok expr =>
          rw [(settings.atLevel .debug).play_of_blank_of_ok htimes hread,
            (settings.atLevel level).play_of_blank_of_ok htimes hread]
          exact ⟨settings.reportBlank_addsLog hlevel .times, rfl, rfl⟩
      | error failure =>
          rw [(settings.atLevel .debug).play_of_blank_of_error htimes hread,
            (settings.atLevel level).play_of_blank_of_error htimes hread]
          exact ⟨settings.report_addsLog hlevel [] _, rfl, rfl⟩

/-- What is kept of the pairs is what the rolls have on record. -/
theorem keptRolls_of_makes {supply : Supply} {times : ℤ} {rolls : List Roll}
    (hmakes : settings.Makes supply times rolls) :
    rolls.flatMap (fun roll => keptRolls settings.mode roll.details) =
      (settings.pairs supply).map settings.mode.kept := by
  obtain ⟨htimes, ⟨after, hroll⟩, -⟩ := hmakes
  unfold pairs draws plan thrown
  rw [htimes]
  cases hread : Expression.read settings.expression with
  | error e =>
      rw [roll_of_read_error supply.source times _ hread] at hroll
      cases hroll
  | ok expr =>
      rw [roll_of_read_ok supply.source times hread] at hroll
      obtain ⟨hpos, -⟩ := Expression.length_of_rollMany_eq_ok hroll
      rw [Expression.rollMany_of_ofName?_some supply.source expr hpos
        settings.mode.ofName?_name] at hroll
      have hfollows :=
        (expr.follows_throw supply.source settings.mode).repeated times.toNat
      obtain ⟨hgranted, rfl⟩ := hfollows.granted_of_eq_ok hroll
      have hlength := supply.source.length_answers_of_granted hgranted
      dsimp only
      rw [expr.flatMap_requests_repeatedDice,
        expr.flatMap_keptRolls_blocks times.toNat hlength.ge]
      rfl

end Settings

theorem run_of_level_eq_value (source : Source σ) (start : σ)
    {arguments : List String} {settings : Settings} {level : LogLevel}
    (hread : Settings.read arguments = .ok settings)
    (hlevel : settings.level = .value level) :
    run source start arguments =
      match settings.seed with
      | none => settings.play source (.initial start)
      | some .blank => (⟨[], [], .blank .seed⟩, .initial start)
      | some (.value seed) =>
        ((settings.play Source.twister (.initial (Twister.ofSeed seed))).1,
          .initial start) := by
  unfold run
  rw [hread]
  dsimp only
  rw [hlevel]
  cases settings.seed with
  | none => rfl
  | some entry => cases entry <;> rfl

theorem run_addsLog (source : Source σ) (start : σ)
    {arguments others : List String} {settings : Settings} {level : LogLevel}
    (hread : Settings.read arguments = .ok (settings.atLevel .debug))
    (hothers : Settings.read others = .ok (settings.atLevel level))
    (hlevel : level ≠ .debug) :
    let verbose := run source start arguments
    let other := run source start others
    verbose.2 = other.2 ∧
      verbose.1.AddsLog
        (if settings.seed = some .blank then []
          else settings.log (settings.supply source start) verbose.1.ending)
        other.1 := by
  have hseeds (level : LogLevel) :
      (settings.atLevel level).seed = settings.seed := rfl
  rw [run_of_level_eq_value source start hread rfl,
    run_of_level_eq_value source start hothers rfl, hseeds, hseeds]
  unfold Settings.supply
  cases settings.seed with
  | none =>
      obtain ⟨hlog, hfeed, -⟩ := settings.play_addsLog source start hlevel
      exact ⟨hfeed, hlog⟩
  | some entry =>
      cases entry with
      | blank => exact ⟨rfl, rfl, rfl, rfl⟩
      | value seed =>
          obtain ⟨hlog, -, -⟩ := settings.play_addsLog Source.twister
            (Twister.ofSeed seed) hlevel
          exact ⟨rfl, hlog⟩

/-- A run at the most talkative level and one at another level, asked for the
same otherwise, end in the same way with the same output and have made the same
requests.  What the first has to say is a log and then what the second has to
say: the expression as it is read, unless it is blank; every pair of draws of
which one is kept, in the order of the draws and up to the first request that is
refused; and the expression once more if it is rejected.  What is kept of the
pairs is what the rolls have on record for those dice.  If the seed was left
blank, both runs break off before all this and say nothing. -/
theorem debug_adds_log (source : Source σ) (start : σ)
    {arguments others : List String} {settings : Settings} {level : LogLevel}
    (hread : Settings.read arguments = .ok (settings.atLevel .debug))
    (hothers : Settings.read others = .ok (settings.atLevel level))
    (hlevel : level ≠ .debug) :
    let verbose := run source start arguments
    let other := run source start others
    let supply := settings.supply source start
    verbose.1.out = other.1.out ∧ verbose.1.ending = other.1.ending ∧
      verbose.2 = other.2 ∧
      ((settings.atLevel .debug).playOn supply).2 =
        ((settings.atLevel level).playOn supply).2 ∧
      (settings.seed = some .blank →
        verbose.1 = ⟨[], [], .blank .seed⟩ ∧ other.1 = ⟨[], [], .blank .seed⟩) ∧
      (settings.seed ≠ some .blank →
        verbose.1.err =
          settings.log supply verbose.1.ending ++ other.1.err) ∧
      ((settings.atLevel level).playOn supply).2.requests.toList =
        settings.plan.take ((settings.draws supply).length + 1) ∧
      ∀ times rolls, settings.Makes supply times rolls →
        rolls.flatMap (fun roll => keptRolls settings.mode roll.details) =
          (settings.pairs supply).map settings.mode.kept := by
  intro verbose other supply
  obtain ⟨hfeeds, hlog⟩ := run_addsLog source start hread hothers hlevel
  obtain ⟨-, hplayed, hrequests⟩ :=
    settings.play_addsLog supply.source supply.start hlevel
  refine ⟨hlog.out, hlog.ending, hfeeds, hplayed, ?_, ?_, hrequests, ?_⟩
  · intro hblank
    have hseed (level : LogLevel) :
        (settings.atLevel level).seed = some .blank := hblank
    constructor
    · change (run source start arguments).1 = _
      rw [run_of_level_eq_value source start hread rfl, hseed]
    · change (run source start others).1 = _
      rw [run_of_level_eq_value source start hothers rfl, hseed]
  · intro hseed
    have herr := hlog.err
    rw [if_neg hseed] at herr
    exact herr
  · intro times rolls hmakes
    exact settings.keptRolls_of_makes hmakes

/-- Two rolls of a single die with advantage: four draws, two pairs. -/
theorem debug_adds_log_two_rolls :
    let source := Source.linear 3 5
    let settings : Settings :=
      ⟨"d20+1", .value 2, .advantage, false, none, .value .info⟩
    let arguments := ["--adv", "-t", "2", "--log-level", "DEBUG", "d20+1"]
    let others := ["--adv", "-t", "2", "--log-level", "INFO", "d20+1"]
    Settings.read arguments = .ok (settings.atLevel .debug) ∧
      Settings.read others = .ok (settings.atLevel .info) ∧
      LogLevel.info ≠ .debug ∧
      (run source 0 arguments).1.out = (run source 0 others).1.out ∧
      (run source 0 arguments).1.err =
        ["[DEBUG] [rpg_dice_sim.parser] - normalized 'd20+1' -> 'd20+1'",
          "[DEBUG] [rpg_dice_sim.dice] - d20 advantage: rolls [4, 9] -> keep 9",
          "[DEBUG] [rpg_dice_sim.dice] - d20 advantage: rolls [14, 19] -> keep 19"] ++
        (run source 0 others).1.err := by
  intro source settings arguments others
  have hread : Settings.read arguments = .ok (settings.atLevel .debug) := by
    rfl
  have hothers : Settings.read others = .ok (settings.atLevel .info) := by
    rfl
  have hlevel : LogLevel.info ≠ .debug := by decide
  obtain ⟨hout, -, -, -, -, hlog, -, -⟩ :=
    debug_adds_log source 0 hread hothers hlevel
  refine ⟨hread, hothers, hlevel, hout, ?_⟩
  have hending : (run source 0 arguments).1.ending = .exit 0 := by
    decide +kernel +zetaReduce
  have hlines : settings.log (settings.supply source 0) (.exit 0) =
        ["[DEBUG] [rpg_dice_sim.parser] - normalized 'd20+1' -> 'd20+1'",
          "[DEBUG] [rpg_dice_sim.dice] - d20 advantage: rolls [4, 9] -> keep 9",
          "[DEBUG] [rpg_dice_sim.dice] - d20 advantage: rolls [14, 19] -> keep 19"] := by
    decide +kernel +zetaReduce
  rw [hlog (by decide), hending, hlines]

/-- A seed with the separator attached is accepted, but left blank: no log is
written for the expression, although it is not blank. -/
theorem blank_seed_logs_nothing :
    let settings : Settings :=
      ⟨"d6", .value 1, .plain, false, some .blank, .value .debug⟩
    let arguments := ["d6", "--seed=--", "--log-level", "DEBUG"]
    let ran := run (Source.linear 3 7) 0 arguments
    Settings.read arguments = .ok settings ∧
      squeeze settings.expression.toList ≠ [] ∧
      ¬ (normalizedLine settings.expression ∈ ran.1.err ↔
        squeeze settings.expression.toList ≠ []) := by
  intro settings arguments ran
  have hread : Settings.read arguments = .ok settings := by rfl
  have hsqueezed : squeeze settings.expression.toList ≠ [] := by decide
  have hran : ran.1.err = [] := by rfl
  refine ⟨hread, hsqueezed, ?_⟩
  intro hlogged
  have hmem := hlogged.mpr hsqueezed
  rw [hran] at hmem
  cases hmem

end CommandLine

end TabletopDice
