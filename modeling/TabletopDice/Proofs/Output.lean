import TabletopDice.Proofs.Refusal

/-!
# All output or none

A run of the command writes on its output channel only after its last roll is
made.  So a run that is refused, or breaks off before, leaves the channel
empty, and one that is refused has not asked its source for anything.  Once
the rolls are made they are all shown, and only their mean can still be
missing, unless one of them has an integer with too many digits to be written.
-/

namespace TabletopDice.CommandLine

open Text Rolling

variable {σ : Type}

/-! ## What a run rolls against -/

/-- A source and the state that it starts from. -/
structure Supply where
  {State : Type}
  source : Source State
  start : State

namespace Settings

/-- What a run rolls against: a generator of its own if a seed is given, and
else the source at hand. -/
def supply (settings : Settings) (source : Source σ) (start : σ) : Supply :=
  match settings.seed with
  | some (.value seed) => ⟨Source.twister, Twister.ofSeed seed⟩
  | _ => ⟨source, start⟩

def playOn (settings : Settings) (supply : Supply) :
    Report × Feed supply.State :=
  settings.play supply.source (.initial supply.start)

/-- The supply is left as it was, with no request made of it. -/
def LeavesUntouched (settings : Settings) (supply : Supply) : Prop :=
  (settings.playOn supply).2 = .initial supply.start

/-- So many rolls are asked for, and these are the ones that are made. -/
structure Makes (settings : Settings) (supply : Supply) (times : ℤ)
    (rolls : List Roll) : Prop where
  asked : settings.times = .value times
  made : ∃ after,
    settings.roll supply.source times (.initial supply.start) = .ok rolls after
  length_eq : (rolls.length : ℤ) = times

variable (settings : Settings)

/-! ## Runs that make no rolls -/

theorem report_of_ne_rejected {failure : Failure}
    (hfailure : ∀ rejection, failure ≠ .rejected rejection)
    (resolutions : List Resolution) :
    settings.report resolutions (.error failure) =
      ⟨[], settings.logged (settings.rollingLog resolutions),
        .broken failure⟩ := by
  cases failure with
  | rejected rejection => exact absurd rfl (hfailure rejection)
  | _ => rfl

/-- Rolling that fails is rejected with nothing drawn, or fails for another
reason than the mean, which comes later. -/
theorem roll_eq_error {source : Source σ} {times : ℤ} {feed after : Feed σ}
    {failure : Failure}
    (hfailed : settings.roll source times feed = .error failure after) :
    (∃ rejection, failure = .rejected rejection ∧ after = feed) ∨
      (failure ≠ .meanOutOfRange ∧
        ∀ rejection, failure ≠ .rejected rejection) := by
  cases hread : Expression.read settings.expression with
  | error e =>
      rw [roll_of_read_error source times feed hread] at hfailed
      cases hfailed
      cases e with
      | fault fault => exact .inl ⟨.expression fault, rfl, rfl⟩
      | tooManyDigits digits => exact .inr (by simp [ReadError.failure])
  | ok expr =>
      rw [roll_of_read_ok source times hread] at hfailed
      rcases Expression.rollMany_error hfailed with
        hrejected | rfl | ⟨refusal, rfl⟩
      · exact .inl hrejected
      · exact .inr (by simp)
      · exact .inr (by simp)

theorem makes_of_roll_eq_ok {supply : Supply} {times : ℤ} {rolls : List Roll}
    {after : Feed supply.State} (htimes : settings.times = .value times)
    (hrolls : settings.roll supply.source times (.initial supply.start) =
      .ok rolls after) :
    settings.Makes supply times rolls := by
  refine ⟨htimes, ⟨after, hrolls⟩, ?_⟩
  unfold roll at hrolls
  obtain ⟨expr, middle, -, hmany⟩ := bind_eq_ok_iff.mp hrolls
  exact (Expression.length_of_rollMany_eq_ok hmany).2

theorem playOn_cases (supply : Supply) :
    (∃ rejection, settings.playOn supply =
      (settings.report [] (.error (.rejected rejection)),
        .initial supply.start)) ∨
    (∃ err setting, (settings.playOn supply).1 = ⟨[], err, .blank setting⟩) ∨
    (∃ err failure,
      (settings.playOn supply).1 = ⟨[], err, .broken failure⟩ ∧
        failure ≠ .meanOutOfRange) ∨
    ∃ times rolls resolutions, settings.Makes supply times rolls ∧
      (settings.playOn supply).1 =
        settings.report resolutions (.ok rolls) := by
  unfold playOn play
  cases htimes : settings.times with
  | blank =>
      dsimp only
      cases hread : Expression.read settings.expression with
      | ok expr =>
          rw [readExpression_of_ok hread]
          exact .inr (.inl ⟨_, .times, rfl⟩)
      | error e =>
          rw [readExpression_of_error hread]
          cases e with
          | fault fault => exact .inl ⟨.expression fault, rfl⟩
          | tooManyDigits digits =>
              exact .inr (.inr (.inl
                ⟨_, .tooManyDigits digits, rfl, by simp⟩))
  | value times =>
      dsimp only
      cases hrolls :
          settings.roll supply.source times (.initial supply.start) with
      | ok rolls after =>
          exact .inr (.inr (.inr ⟨times, rolls, _,
            settings.makes_of_roll_eq_ok htimes hrolls, rfl⟩))
      | error failure after =>
          rcases settings.roll_eq_error hrolls with
            ⟨rejection, rfl, rfl⟩ | ⟨hmean, hother⟩
          · exact .inl ⟨rejection, rfl⟩
          · exact .inr (.inr (.inl
              ⟨_, failure, settings.report_of_ne_rejected hother _, hmean⟩))

/-! ## Runs that make their rolls -/

theorem report_of_rolls (resolutions : List Resolution) (rolls : List Roll) :
    let err := settings.logged (settings.rollingLog resolutions)
    let report := settings.report resolutions (.ok rolls)
    (∃ lines, summaryLines rolls = .ok lines ∧
      report = ⟨settings.rollLines rolls ++ lines, err, .exit 0⟩) ∨
    report = ⟨settings.rollLines rolls, err, .broken .meanOutOfRange⟩ ∨
    ((∃ roll ∈ rolls, settings.isWritable roll = false) ∧
      ∃ out, report = ⟨out, err, .broken .unwritable⟩) := by
  intro err report
  have hreport : report = settings.report resolutions (.ok rolls) := rfl
  unfold Settings.report at hreport
  dsimp only at hreport
  rw [hreport]
  by_cases hwritable : rolls.all settings.isWritable = true
  · rw [if_pos hwritable]
    cases hlines : summaryLines rolls with
    | ok lines => exact .inl ⟨lines, rfl, rfl⟩
    | error failure =>
        rw [summaryLines_error hlines]
        exact .inr (.inl rfl)
  · rw [if_neg hwritable]
    have hrolls : ∃ roll ∈ rolls, settings.isWritable roll = false := by
      simpa using hwritable
    exact .inr (.inr ⟨hrolls, _, rfl⟩)

/-! ## Lines of rolls and of the summary -/

theorem mem_intercalate {α : Type} {x : α} {separator : List α}
    {groups : List (List α)} (hx : x ∈ separator.intercalate groups) :
    x ∈ separator ∨ ∃ group ∈ groups, x ∈ group := by
  induction groups with
  | nil => simp at hx
  | cons first rest ih =>
      cases rest with
      | nil => exact .inr ⟨first, List.mem_singleton_self first, by simpa using hx⟩
      | cons second rest =>
          rw [List.intercalate_cons_cons, List.append_assoc, List.mem_append,
            List.mem_append] at hx
          rcases hx with hfirst | hseparator | hlater
          · exact .inr ⟨first, List.mem_cons_self, hfirst⟩
          · exact .inl hseparator
          · refine (ih hlater).imp_right fun hgroup => ?_
            obtain ⟨group, hmem, hin⟩ := hgroup
            exact ⟨group, List.mem_cons_of_mem first hmem, hin⟩

end Settings

/-! ## How a run can end -/

/-- What a run can report, and the feed that it can leave. -/
inductive Ends (source : Source σ) (start : σ) (arguments : List String) :
    Report × Feed σ → Prop
  | help (hread : Settings.read arguments = .error .help) :
      Ends source start arguments (⟨helpLines, [], .exit 0⟩, .initial start)
  | misused {error : UsageError}
      (hread : Settings.read arguments = .error (.refused error)) :
      Ends source start arguments (⟨[], error.lines, .exit 2⟩, .initial start)
  | rejected {settings : Settings} {err : List String}
      (hread : Settings.read arguments = .ok settings)
      (hkept : settings.LeavesUntouched (settings.supply source start)) :
      Ends source start arguments (⟨[], err, .exit 1⟩, .initial start)
  | blank {err : List String} {setting : Setting} {feed : Feed σ} :
      Ends source start arguments (⟨[], err, .blank setting⟩, feed)
  | unrolled {err : List String} {failure : Failure} {feed : Feed σ}
      (hfailure : failure ≠ .meanOutOfRange) :
      Ends source start arguments (⟨[], err, .broken failure⟩, feed)
  | unwritable {settings : Settings} {times : ℤ} {rolls : List Roll}
      {out err : List String} {feed : Feed σ}
      (hread : Settings.read arguments = .ok settings)
      (hmakes : settings.Makes (settings.supply source start) times rolls)
      (hrolls : ∃ roll ∈ rolls, settings.isWritable roll = false) :
      Ends source start arguments (⟨out, err, .broken .unwritable⟩, feed)
  | meanless {settings : Settings} {times : ℤ} {rolls : List Roll}
      {err : List String} {feed : Feed σ}
      (hread : Settings.read arguments = .ok settings)
      (hmakes : settings.Makes (settings.supply source start) times rolls) :
      Ends source start arguments
        (⟨settings.rollLines rolls, err, .broken .meanOutOfRange⟩, feed)
  | finished {settings : Settings} {times : ℤ} {rolls : List Roll}
      {lines log : List String} {feed : Feed σ}
      (hread : Settings.read arguments = .ok settings)
      (hmakes : settings.Makes (settings.supply source start) times rolls)
      (hlines : Settings.summaryLines rolls = .ok lines) :
      Ends source start arguments
        (⟨settings.rollLines rolls ++ lines, settings.logged log, .exit 0⟩,
          feed)

theorem ends_of_playOn {source : Source σ} {start : σ}
    {arguments : List String} {settings : Settings}
    (hread : Settings.read arguments = .ok settings) {feed : Feed σ}
    (hkept : settings.LeavesUntouched (settings.supply source start) →
      feed = .initial start) :
    Ends source start arguments
      ((settings.playOn (settings.supply source start)).1, feed) := by
  rcases settings.playOn_cases (settings.supply source start) with
    ⟨rejection, hplay⟩ | ⟨err, setting, hplay⟩ |
    ⟨err, failure, hplay, hfailure⟩ |
    ⟨times, rolls, resolutions, hmakes, hplay⟩
  · have huntouched :
        settings.LeavesUntouched (settings.supply source start) :=
      congrArg Prod.snd hplay
    rw [hplay, hkept huntouched]
    exact .rejected hread huntouched
  · rw [hplay]
    exact .blank
  · rw [hplay]
    exact .unrolled hfailure
  · rw [hplay]
    rcases settings.report_of_rolls resolutions rolls with
      ⟨lines, hlines, hreport⟩ | hreport | ⟨hrolls, out, hreport⟩
    · rw [hreport]
      exact .finished hread hmakes hlines
    · rw [hreport]
      exact .meanless hread hmakes
    · rw [hreport]
      exact .unwritable hread hmakes hrolls

theorem ends_run (source : Source σ) (start : σ) (arguments : List String) :
    Ends source start arguments (run source start arguments) := by
  unfold run
  cases hread : Settings.read arguments with
  | error stop =>
      cases stop with
      | help => exact .help hread
      | refused error => exact .misused hread
  | ok settings =>
      have hends := @ends_of_playOn σ source start arguments settings hread
      unfold Settings.LeavesUntouched Settings.playOn Settings.supply at hends
      dsimp only
      cases settings.level with
      | blank => exact .blank
      | value level =>
          cases hseed : settings.seed with
          | none =>
              rw [hseed] at hends
              exact hends id
          | some entry =>
              cases entry with
              | blank => exact .blank
              | value seed =>
                  rw [hseed] at hends
                  exact hends fun _ => rfl

end TabletopDice.CommandLine
