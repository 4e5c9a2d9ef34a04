import TabletopDice.Proofs.Output
import TabletopDice.Proofs.Spelling
import TabletopDice.Proofs.Taking

/-!
# Advantage or disadvantage

The flag for one mode is refused once that for the other is raised, however
far apart the two stand.  So a run that comes to read its expression rolls with
advantage exactly if that flag stands before the separator, and with
disadvantage exactly if that one does.  With both of them there is no such
run: the arguments are in error, unless help is met first.
-/

namespace TabletopDice.CommandLine

open Text

variable {σ : Type}

/-! ## Arguments that raise a flag -/

/-- The mode that a flag chooses. -/
def Flag.mode? : Flag → Option Mode
  | .advantage => some .advantage
  | .disadvantage => some .disadvantage
  | _ => none

theorem Flag.mode?_cases {flag : Flag} {mode : Mode}
    (hflag : flag.mode? = some mode) :
    (flag = .advantage ∧ mode = .advantage) ∨
      (flag = .disadvantage ∧ mode = .disadvantage) := by
  cases flag with
  | help => cases hflag
  | quiet => cases hflag
  | advantage => exact .inl ⟨rfl, (Option.some.inj hflag).symm⟩
  | disadvantage => exact .inr ⟨rfl, (Option.some.inj hflag).symm⟩

theorem Flag.letter?_of_mode? {flag : Flag} {mode : Mode}
    (hflag : flag.mode? = some mode) :
    (Switch.flag flag).letter? = none := by
  rcases mode?_cases hflag with ⟨rfl, rfl⟩ | ⟨rfl, rfl⟩ <;> rfl

/-- The argument spells the flag, alone or among others. -/
def Argument.Raises (flag : Flag) (argument : Argument) : Prop :=
  ∃ switch long attached spelling,
    argument = .named switch long attached ∧
      Spelling.read switch long attached = .ok spelling ∧
      flag ∈ spelling.flags

theorem Argument.raises_named_iff {flag : Flag} {switch : Switch} {long : Bool}
    {attached : Option (List Char)} {spelling : Spelling}
    (hspelling : Spelling.read switch long attached = .ok spelling) :
    (Argument.named switch long attached).Raises flag ↔
      flag ∈ spelling.flags := by
  constructor
  · rintro ⟨_, _, _, found, hnamed, hfound, hmem⟩
    cases hnamed
    rw [hspelling] at hfound
    cases hfound
    exact hmem
  · exact fun hmem => ⟨_, _, _, spelling, rfl, hspelling, hmem⟩

namespace Spelling

/-- The letters behind a flag raise flags that have a letter. -/
theorem mem_flags_of_ofLetters {first flag : Flag} {cs : List Char}
    {spelling : Spelling} (hspelling : ofLetters first cs = .ok spelling)
    (hmem : flag ∈ spelling.flags) :
    flag = first ∨ (Switch.flag flag).letter? ≠ none := by
  induction cs generalizing first spelling with
  | nil =>
      cases hspelling
      exact .inl (List.mem_singleton.mp hmem)
  | cons letter rest ih =>
      unfold ofLetters at hspelling
      split at hspelling
      next next hletter =>
        obtain ⟨later, hlater, hsame⟩ :=
          Traversal.bind_eq_ok_iff.mp hspelling
        cases hsame
        rcases List.mem_cons.mp hmem with rfl | hmem
        · exact .inl rfl
        · refine .inr ?_
          rcases ih hlater hmem with rfl | hlettered
          · rw [Switch.ofLetter?_eq_some_iff.mp hletter]
            exact Option.some_ne_none letter
          · exact hlettered
      next =>
        cases hspelling
        exact .inl (List.mem_singleton.mp hmem)
      next => cases hspelling

/-- A flag without a letter is spelled by its long name alone. -/
theorem eq_of_mem_flags {switch : Switch} {long : Bool}
    {attached : Option (List Char)} {spelling : Spelling}
    (hspelling : read switch long attached = .ok spelling) {flag : Flag}
    (hmem : flag ∈ spelling.flags)
    (hletter : (Switch.flag flag).letter? = none) :
    switch = .flag flag ∧ (long = true → attached = none) := by
  cases switch with
  | setting setting =>
      cases hspelling
      cases hmem
  | flag first =>
      cases attached with
      | none =>
          cases hspelling
          obtain rfl := List.mem_singleton.mp hmem
          exact ⟨rfl, fun _ => rfl⟩
      | some cs =>
          have hflag : ofFlag first long (some cs) = .ok spelling := hspelling
          unfold ofFlag at hflag
          dsimp only at hflag
          split at hflag
          next => cases hflag
          next hshort =>
            rcases mem_flags_of_ofLetters hflag hmem with rfl | hlettered
            · refine ⟨rfl, fun hlong => ?_⟩
              simp [hlong] at hshort
            · exact absurd hletter hlettered

end Spelling

/-! ## Arguments that ask for a mode -/

/-- The ways to ask for a mode. -/
def modeSpellings : Mode → List String
  | .plain => []
  | .advantage => ["--a", "--ad", "--adv"]
  | .disadvantage => ["--d", "--di", "--dis"]

/-- An argument before the separator asks for the mode. -/
def AsksFor (mode : Mode) (arguments : List String) : Prop :=
  ∃ argument ∈ arguments.takeWhile (· != "--"), argument ∈ modeSpellings mode

theorem toList_mem_of_abbreviates {flag : Flag} {mode : Mode}
    (hflag : flag.mode? = some mode) {stem : List Char}
    (hstem : (Switch.flag flag).Abbreviates stem) :
    String.ofList ('-' :: '-' :: stem) ∈ modeSpellings mode := by
  have hinits := (List.mem_inits _ _).mpr hstem.isPrefix
  have hne := hstem.ne_nil
  rcases Flag.mode?_cases hflag with ⟨rfl, rfl⟩ | ⟨rfl, rfl⟩
  · have hcases : stem = [] ∨ stem = ['a'] ∨ stem = ['a', 'd'] ∨
        stem = ['a', 'd', 'v'] := by simpa [Switch.longName] using hinits
    rcases hcases with rfl | rfl | rfl | rfl
    · exact absurd rfl hne
    all_goals decide
  · have hcases : stem = [] ∨ stem = ['d'] ∨ stem = ['d', 'i'] ∨
        stem = ['d', 'i', 's'] := by simpa [Switch.longName] using hinits
    rcases hcases with rfl | rfl | rfl | rfl
    · exact absurd rfl hne
    all_goals decide

theorem Argument.read_of_mem_modeSpellings {flag : Flag} {mode : Mode}
    (hflag : flag.mode? = some mode) {text : String}
    (hmem : text ∈ modeSpellings mode) :
    read text = .ok (.named (.flag flag) true none) := by
  rcases Flag.mode?_cases hflag with ⟨rfl, rfl⟩ | ⟨rfl, rfl⟩
  · have hread : ∀ text ∈ modeSpellings .advantage,
        read text = .ok (.named (.flag .advantage) true none) := by decide
    exact hread text hmem
  · have hread : ∀ text ∈ modeSpellings .disadvantage,
        read text = .ok (.named (.flag .disadvantage) true none) := by decide
    exact hread text hmem

/-- An argument raises the flag for a mode exactly if it is one of the ways to
ask for that mode. -/
theorem raises_iff_of_read {text : String} {argument : Argument}
    (hread : Argument.read text = .ok argument) {flag : Flag} {mode : Mode}
    (hflag : flag.mode? = some mode) :
    argument.Raises flag ↔ text ∈ modeSpellings mode := by
  constructor
  · rintro ⟨switch, long, attached, spelling, rfl, hspelling, hmem⟩
    have hletter := Flag.letter?_of_mode? hflag
    obtain ⟨rfl, hattached⟩ := Spelling.eq_of_mem_flags hspelling hmem hletter
    rcases Argument.names_of_read_eq_named hread with
      ⟨hlong, name, stem, htext, hsplit, hstem⟩ | ⟨-, letter, hfound⟩
    · rw [hattached hlong] at hsplit
      obtain rfl := Argument.eq_of_splitEquals_eq_none hsplit
      have hasked := toList_mem_of_abbreviates hflag hstem
      rwa [← htext, String.ofList_toList] at hasked
    · rw [hletter] at hfound
      cases hfound
  · intro hmem
    rw [Argument.read_of_mem_modeSpellings hflag hmem] at hread
    cases hread
    exact ⟨_, _, _, ⟨[flag], none⟩, rfl, rfl, List.mem_singleton_self flag⟩

theorem exists_raises_iff {flag : Flag} {mode : Mode}
    (hflag : flag.mode? = some mode) {texts : List String}
    {understood : List Argument}
    (hread : List.Forall₂
      (fun text argument => Argument.read text = .ok argument)
      texts understood) :
    (∃ argument ∈ understood, argument.Raises flag) ↔
      ∃ text ∈ texts, text ∈ modeSpellings mode := by
  induction hread with
  | nil => simp
  | cons hfirst _ ih =>
      rw [List.exists_mem_cons_iff, List.exists_mem_cons_iff, ih,
        raises_iff_of_read hfirst hflag]

namespace Choices

/-! ## The mode after the arguments -/

variable {c d : Choices} {flag : Flag} {mode : Mode}

theorem mode_takeOperand (text : String) (c : Choices) :
    (c.takeOperand text).mode = c.mode := by
  unfold takeOperand
  split <;> rfl

theorem raise_advantage_eq_ok_iff :
    c.raise .advantage = .ok d ↔
      c.mode ≠ .disadvantage ∧ { c with mode := .advantage } = d := by
  by_cases hmode : c.mode = .disadvantage <;> simp [raise, hmode]

theorem raise_disadvantage_eq_ok_iff :
    c.raise .disadvantage = .ok d ↔
      c.mode ≠ .advantage ∧ { c with mode := .disadvantage } = d := by
  by_cases hmode : c.mode = .advantage <;> simp [raise, hmode]

/-- A flag for a mode is raised only if the other mode is not chosen. -/
theorem raise_mode_eq_iff (hflag : flag.mode? = some mode) {raised : Flag}
    (hraised : c.raise raised = .ok d) :
    d.mode = mode ↔ c.mode = mode ∨ flag = raised := by
  have hchosen := Flag.mode?_cases hflag
  cases raised with
  | help => cases hraised
  | quiet =>
      cases hraised
      rcases hchosen with ⟨rfl, rfl⟩ | ⟨rfl, rfl⟩ <;> simp
  | advantage =>
      obtain ⟨hother, rfl⟩ := raise_advantage_eq_ok_iff.mp hraised
      rcases hchosen with ⟨rfl, rfl⟩ | ⟨rfl, rfl⟩ <;> simp [hother]
  | disadvantage =>
      obtain ⟨hother, rfl⟩ := raise_disadvantage_eq_ok_iff.mp hraised
      rcases hchosen with ⟨rfl, rfl⟩ | ⟨rfl, rfl⟩ <;> simp [hother]

theorem raiseAll_mode_eq_iff (hflag : flag.mode? = some mode)
    {flags : List Flag} (hraised : raiseAll flags c = .ok d) :
    d.mode = mode ↔ c.mode = mode ∨ flag ∈ flags := by
  induction flags generalizing c with
  | nil =>
      cases hraised
      simp
  | cons first rest ih =>
      rw [raiseAll_cons] at hraised
      obtain ⟨middle, hfirst, hrest⟩ := Traversal.bind_eq_ok_iff.mp hraised
      rw [ih hrest, raise_mode_eq_iff hflag hfirst, List.mem_cons, or_assoc]

theorem mode_of_assign {setting : Setting} {value : String}
    (hassigned : c.assign setting value = .ok d) : d.mode = c.mode := by
  unfold assign at hassigned
  split at hassigned
  all_goals
    split at hassigned
    next =>
      cases hassigned
      rfl
    next => cases hassigned

theorem mode_leaveBlank (setting : Setting) (c : Choices) :
    (c.leaveBlank setting).mode = c.mode := by
  cases setting <;> rfl

theorem Sets.mode_eq {setting : Option (Setting × Option (List Char))}
    {value : List Argument} (hset : Sets setting value c d) :
    d.mode = c.mode := by
  cases hset with
  | nothing => rfl
  | behind hassigned => exact mode_of_assign hassigned
  | @attached setting text _ _ hassigned =>
      unfold assignAttached at hassigned
      split at hassigned
      next =>
        cases hassigned
        exact mode_leaveBlank setting c
      next => exact mode_of_assign hassigned

theorem Sets.not_raises {setting : Option (Setting × Option (List Char))}
    {value : List Argument} (hset : Sets setting value c d) :
    ∀ argument ∈ value, ¬ argument.Raises flag := by
  intro argument hmem
  cases hset with
  | nothing => cases hmem
  | attached => cases hmem
  | behind =>
      obtain rfl := List.mem_singleton.mp hmem
      rintro ⟨_, _, _, _, hnamed, -⟩
      cases hnamed

/-- After a step the mode is chosen if it was before, or if one of the arguments
that the step takes raises the flag for it. -/
theorem Step.mode_eq_iff (hflag : flag.mode? = some mode)
    {taken : List Argument} (hstep : Step taken c d) :
    d.mode = mode ↔
      c.mode = mode ∨ ∃ argument ∈ taken, argument.Raises flag := by
  cases hstep with
  | operand text =>
      rw [mode_takeOperand]
      simp [Argument.Raises]
  | unknown text =>
      have hmode : (c.takeUnknown text).mode = c.mode := rfl
      rw [hmode]
      simp [Argument.Raises]
  | @named switch long attached flags setting value _ middle _ hspelling
      hraised hset =>
      have hvalue : ¬ ∃ argument ∈ value, argument.Raises flag := by
        rintro ⟨argument, hmem, hraises⟩
        exact hset.not_raises argument hmem hraises
      rw [hset.mode_eq, raiseAll_mode_eq_iff hflag hraised,
        List.exists_mem_cons_iff, Argument.raises_named_iff hspelling,
        or_iff_left hvalue]
      rfl

theorem Steps.mode_eq_iff (hflag : flag.mode? = some mode)
    {taken : List Argument} (hsteps : Steps taken c d) :
    d.mode = mode ↔
      c.mode = mode ∨ ∃ argument ∈ taken, argument.Raises flag := by
  induction hsteps with
  | nil => simp
  | @cons first rest c middle d hstep _ ih =>
      rw [ih, hstep.mode_eq_iff hflag, or_assoc]
      refine or_congr_right ?_
      simp only [List.mem_append, or_and_right, exists_or]

end Choices

/-! ## Runs that come to read their expression -/

/-- Help is met: all arguments before the separator are understood, and those in
front of the one that asks for help are taken without an error. -/
def HelpIsMet (arguments : List String) : Prop :=
  ∃ taken rest choices,
    Settings.understand (arguments.takeWhile (· != "--")) =
      .ok (taken ++ rest) ∧
    Choices.Steps taken {} choices ∧ Choices.MeetsHelp rest choices

namespace Settings

/-- A run with these arguments comes to read its expression: they are accepted,
and what is needed before the expression is not left blank. -/
structure ReachesExpression (settings : Settings) (arguments : List String) :
    Prop where
  read : Settings.read arguments = .ok settings
  level : settings.level ≠ .blank
  seed : settings.seed ≠ some .blank

theorem ReachesExpression.fst_run {settings : Settings}
    {arguments : List String} (hreaches : settings.ReachesExpression arguments)
    (source : Source σ) (start : σ) :
    (run source start arguments).1 =
      (settings.playOn (settings.supply source start)).1 := by
  obtain ⟨hread, hlevel, hseed⟩ := hreaches
  unfold run playOn supply
  rw [hread]
  dsimp only
  cases hfound : settings.level with
  | blank => exact absurd hfound hlevel
  | value level =>
      cases hgiven : settings.seed with
      | none => rfl
      | some entry =>
          cases entry with
          | blank => exact absurd hgiven hseed
          | value seed => rfl

theorem understand_ne_help (texts : List String) :
    understand texts ≠ .error .help := by
  unfold understand
  cases texts.mapM Argument.read with
  | error error => exact fun hstop => nomatch hstop
  | ok understood => exact fun hstop => nomatch hstop

theorem conclude_ne_help (choices : Choices) (after : Option (List String)) :
    choices.conclude after ≠ .error .help := by
  rcases choices.conclude_cases after with
    ⟨settings, hconclude, -⟩ | ⟨error, hconclude⟩
  · rw [hconclude]
    exact fun hstop => nomatch hstop
  · rw [hconclude]
    exact fun hstop => nomatch hstop

/-- Only an argument that asks for help stops the reading with help. -/
theorem read_eq_help_iff {arguments : List String} :
    read arguments = .error .help ↔ HelpIsMet arguments := by
  have htaken (understood : List Argument) :
      (Choices.takeAll understood {} >>= fun choices =>
        choices.conclude (splitSeparator arguments).2) = .error .help ↔
      Choices.takeAll understood {} = .error .help := by
    rw [Traversal.bind_eq_error_iff]
    refine or_iff_left ?_
    rintro ⟨choices, -, hstop⟩
    exact conclude_ne_help choices _ hstop
  rw [read_eq, Traversal.bind_eq_error_iff, or_iff_right (understand_ne_help _)]
  constructor
  · rintro ⟨understood, hunderstood, hstop⟩
    obtain ⟨taken, rest, choices, rfl, hsteps, hmeets⟩ :=
      Choices.takeAll_eq_help_iff.mp ((htaken understood).mp hstop)
    exact ⟨taken, rest, choices, hunderstood, hsteps, hmeets⟩
  · rintro ⟨taken, rest, choices, hunderstood, hsteps, hmeets⟩
    refine ⟨taken ++ rest, hunderstood, (htaken _).mpr ?_⟩
    exact Choices.takeAll_eq_help_iff.mpr
      ⟨taken, rest, choices, rfl, hsteps, hmeets⟩

/-- The mode that is read is the one that is asked for. -/
theorem mode_eq_iff_asksFor {settings : Settings} {arguments : List String}
    (hread : read arguments = .ok settings) {flag : Flag} {mode : Mode}
    (hflag : flag.mode? = some mode) :
    settings.mode = mode ↔ AsksFor mode arguments := by
  rw [read_eq] at hread
  obtain ⟨understood, hunderstood, hread⟩ := Traversal.bind_eq_ok_iff.mp hread
  obtain ⟨choices, htaken, hconclude⟩ := Traversal.bind_eq_ok_iff.mp hread
  have hmode : settings.mode = choices.mode := by
    rcases choices.conclude_cases (splitSeparator arguments).2 with
      ⟨found, hfound, hmode⟩ | ⟨error, hrefused⟩
    · rw [hfound] at hconclude
      rwa [Except.ok.inj hconclude] at hmode
    · rw [hrefused] at hconclude
      cases hconclude
  have hsteps := Choices.takeAll_eq_ok_iff.mp htaken
  have hraises := exists_raises_iff hflag
    (understand_eq_ok_iff.mp hunderstood)
  have hplain : ({} : Choices).mode ≠ mode := by
    rcases Flag.mode?_cases hflag with ⟨-, rfl⟩ | ⟨-, rfl⟩ <;> decide
  rw [hmode, hsteps.mode_eq_iff hflag, or_iff_right hplain, hraises]
  rfl

end Settings

theorem run_of_read_eq_error (source : Source σ) (start : σ)
    {arguments : List String} {stop : Stop}
    (hread : Settings.read arguments = .error stop) :
    run source start arguments = (stop.report, .initial start) := by
  unfold run
  rw [hread]

/-- Arguments that ask for both modes are never accepted: the run shows the help
if that is met before there is an error, and else is misused, and it asks its
source for nothing.  A run that comes to read its expression rolls in the mode
that it is asked for before the separator, and in the plain one if it is asked
for none. -/
theorem modes_exclude_each_other (source : Source σ) (start : σ)
    (arguments : List String) :
    (AsksFor .advantage arguments → AsksFor .disadvantage arguments →
      let ran := run source start arguments
      (∀ settings, Settings.read arguments ≠ .ok settings) ∧
      ran.2 = .initial start ∧
      ((HelpIsMet arguments ∧ ran.1 = ⟨helpLines, [], .exit 0⟩) ∨
        (¬ HelpIsMet arguments ∧
          ∃ error : UsageError, ran.1 = ⟨[], error.lines, .exit 2⟩))) ∧
    ∀ settings : Settings, settings.ReachesExpression arguments →
      (run source start arguments).1 =
          (settings.playOn (settings.supply source start)).1 ∧
        (settings.mode = .advantage ↔ AsksFor .advantage arguments) ∧
        (settings.mode = .disadvantage ↔ AsksFor .disadvantage arguments) ∧
        (settings.mode = .plain ↔
          ¬ AsksFor .advantage arguments ∧
            ¬ AsksFor .disadvantage arguments) := by
  have hadvantage {settings : Settings}
      (hread : Settings.read arguments = .ok settings) :
      settings.mode = .advantage ↔ AsksFor .advantage arguments :=
    Settings.mode_eq_iff_asksFor hread (show Flag.advantage.mode? = _ from rfl)
  have hdisadvantage {settings : Settings}
      (hread : Settings.read arguments = .ok settings) :
      settings.mode = .disadvantage ↔ AsksFor .disadvantage arguments :=
    Settings.mode_eq_iff_asksFor hread
      (show Flag.disadvantage.mode? = _ from rfl)
  refine ⟨?_, ?_⟩
  · intro hfirst hsecond ran
    have hnone : ∀ settings, Settings.read arguments ≠ .ok settings := by
      intro settings hread
      have hmode := (hadvantage hread).mpr hfirst
      rw [(hdisadvantage hread).mpr hsecond] at hmode
      cases hmode
    cases hread : Settings.read arguments with
    | ok settings => exact absurd hread (hnone settings)
    | error stop =>
        have hran : ran = (stop.report, .initial start) :=
          run_of_read_eq_error source start hread
        rw [hran, ← Settings.read_eq_help_iff, hread]
        refine ⟨hread ▸ hnone, rfl, ?_⟩
        cases stop with
        | help => exact .inl ⟨rfl, rfl⟩
        | refused error => exact .inr ⟨by simp, error, rfl⟩
  · intro settings hreaches
    have hplain := hadvantage hreaches.read
    have hother := hdisadvantage hreaches.read
    refine ⟨hreaches.fst_run source start, hplain, hother, ?_⟩
    rw [← hplain, ← hother]
    cases settings.mode <;> simp

/-- The two flags stand far apart, and the number of rolls is missing in front
of the second one; help in between wins over the conflict; and behind the
separator a flag is none. -/
theorem modes_exclude_each_other_far_apart :
    let source := Source.linear 3 7
    let both := ["--di", "-q", "--seed", "-4", "d20", "--times", "--adv"]
    let helped := ["--a", "-qht2", "--dis", "d20"]
    let one := ["-q", "--ad", "--seed=9", "--", "--dis"]
    AsksFor .advantage both ∧ AsksFor .disadvantage both ∧
      (run source 0 both).2 = .initial 0 ∧
      (run source 0 both).1.ending = .exit 2 ∧
      AsksFor .advantage helped ∧ AsksFor .disadvantage helped ∧
      (run source 0 helped).1.ending = .exit 0 ∧ HelpIsMet helped ∧
      ∃ settings : Settings, settings.ReachesExpression one ∧
        settings.mode = .advantage ∧ AsksFor .advantage one ∧
        ¬ AsksFor .disadvantage one := by
  intro source both helped one
  have hboth : AsksFor .advantage both ∧ AsksFor .disadvantage both :=
    ⟨⟨"--adv", by decide +zetaReduce, by decide⟩,
      ⟨"--di", by decide +zetaReduce, by decide⟩⟩
  have hhelped : AsksFor .advantage helped ∧ AsksFor .disadvantage helped :=
    ⟨⟨"--a", by decide +zetaReduce, by decide⟩,
      ⟨"--dis", by decide +zetaReduce, by decide⟩⟩
  have hreaches : Settings.ReachesExpression
      ⟨"--dis", .value 1, .advantage, true, some (.value 9), .value .warning⟩
      one := ⟨by rfl, by decide, by decide⟩
  have hbothEnding : (run source 0 both).1.ending = .exit 2 := by rfl
  have hhelpedEnding : (run source 0 helped).1.ending = .exit 0 := by rfl
  obtain ⟨-, huntouched, -⟩ :=
    (modes_exclude_each_other source 0 both).1 hboth.1 hboth.2
  obtain ⟨-, -, hends⟩ :=
    (modes_exclude_each_other source 0 helped).1 hhelped.1 hhelped.2
  obtain ⟨-, hadvantage, hdisadvantage, -⟩ :=
    (modes_exclude_each_other source 0 one).2 _ hreaches
  have hmet : HelpIsMet helped := by
    rcases hends with ⟨hmet, -⟩ | ⟨-, error, hran⟩
    · exact hmet
    · rw [hran] at hhelpedEnding
      cases hhelpedEnding
  exact ⟨hboth.1, hboth.2, huntouched, hbothEnding, hhelped.1, hhelped.2,
    hhelpedEnding, hmet, _, hreaches, rfl, hadvantage.mp rfl,
    fun hasked => nomatch hdisadvantage.mpr hasked⟩

end TabletopDice.CommandLine
