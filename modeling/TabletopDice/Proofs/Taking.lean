import TabletopDice.CommandLine.Settings
import TabletopDice.Proofs.Traversal
import Mathlib.Data.List.TakeWhile

/-!
# Arguments taken one after the other

Arguments take effect from left to right, each in one step, except that a
setting and the operand which is its value are taken together.  Here the single
steps are given as a relation.  The arguments are taken to the end exactly by
steps that follow each other, and else there is a first argument that no step
takes: it is in error, or it meets a flag that asks for help.
-/

namespace TabletopDice.CommandLine

namespace Choices

/-! ## Steps -/

/-- The choices once a switch is met: the last argument is no expression. -/
def pastExpression (choices : Choices) : Choices :=
  { choices with atExpression := false }

/-- A spelling may end in a setting, which takes the text attached to it or the
argument behind it. -/
inductive Sets : Option (Setting × Option (List Char)) → List Argument →
    Choices → Choices → Prop
  | nothing (c : Choices) : Sets none [] c c
  | attached {setting : Setting} {text : List Char} {c d : Choices}
      (hassigned : c.assignAttached setting text = .ok d) :
      Sets (some (setting, some text)) [] c d
  | behind {setting : Setting} {value : String} {c d : Choices}
      (hassigned : c.assign setting value = .ok d) :
      Sets (some (setting, none)) [.operand value] c d

/-- One step: the arguments that it takes, and the choices before and after. -/
inductive Step : List Argument → Choices → Choices → Prop
  | operand (text : String) (c : Choices) :
      Step [.operand text] c (c.takeOperand text)
  | unknown (text : String) (c : Choices) :
      Step [.unknown text] c (c.takeUnknown text)
  | named {switch : Switch} {long : Bool} {attached : Option (List Char)}
      {flags : List Flag} {setting : Option (Setting × Option (List Char))}
      {value : List Argument} {c d e : Choices}
      (hspelling : Spelling.read switch long attached = .ok ⟨flags, setting⟩)
      (hraised : raiseAll flags c.pastExpression = .ok d)
      (hset : Sets setting value d e) :
      Step (.named switch long attached :: value) c e

inductive Steps : List Argument → Choices → Choices → Prop
  | nil (c : Choices) : Steps [] c c
  | cons {taken rest : List Argument} {c d e : Choices}
      (hstep : Step taken c d) (hrest : Steps rest d e) :
      Steps (taken ++ rest) c e

variable {c d e : Choices}

/-- A setting at the end of a spelling finds the value that it needs. -/
def HasValue (setting : Option (Setting × Option (List Char)))
    (rest : List Argument) : Prop :=
  ∀ needy, setting = some (needy, none) →
    ∃ value later, rest = .operand value :: later

/-- What happens once the flags of a spelling are raised: its setting takes
effect, and then the rest is taken. -/
def takeBehind (setting : Option (Setting × Option (List Char)))
    (rest : List Argument) (c : Choices) : Except Stop Choices :=
  match setting, rest with
  | none, rest => takeAll rest c
  | some (setting, some text), rest => do
    takeAll rest (← c.assignAttached setting text)
  | some (setting, none), .operand value :: rest => do
    takeAll rest (← c.assign setting value)
  | some (setting, none), _ => .error (.refused (.noValue setting))

section Named

variable {switch : Switch} {long : Bool} {attached : Option (List Char)}
  {flags : List Flag} {setting : Option (Setting × Option (List Char))}
  {rest : List Argument}
  (hspelling : Spelling.read switch long attached = .ok ⟨flags, setting⟩)

include hspelling

theorem takeAll_named (hvalue : HasValue setting rest) (c : Choices) :
    takeAll (.named switch long attached :: rest) c =
      raiseAll flags c.pastExpression >>= takeBehind setting rest := by
  rw [takeAll, hspelling]
  cases setting with
  | none => rfl
  | some found =>
      obtain ⟨setting, given⟩ := found
      cases given with
      | some text => rfl
      | none =>
          obtain ⟨value, later, rfl⟩ := hvalue setting rfl
          rfl

theorem takeAll_named_of_not_hasValue (hvalue : ¬ HasValue setting rest)
    (c : Choices) :
    ∃ needy, takeAll (.named switch long attached :: rest) c =
      .error (.refused (.noValue needy)) := by
  unfold HasValue at hvalue
  push Not at hvalue
  obtain ⟨needy, rfl, hnone⟩ := hvalue
  refine ⟨needy, ?_⟩
  rw [takeAll, hspelling]
  dsimp only
  split
  next value later => exact absurd rfl (hnone value later)
  next => rfl

end Named

theorem Sets.hasValue {setting : Option (Setting × Option (List Char))}
    {value : List Argument} (hset : Sets setting value c d)
    (rest : List Argument) : HasValue setting (value ++ rest) := by
  intro needy hneedy
  cases hset with
  | nothing => cases hneedy
  | attached => cases hneedy
  | @behind setting value => exact ⟨value, rest, rfl⟩

theorem Sets.takeBehind_append {setting : Option (Setting × Option (List Char))}
    {value : List Argument} (hset : Sets setting value c d)
    (rest : List Argument) :
    takeBehind setting (value ++ rest) c = takeAll rest d := by
  cases hset with
  | nothing => rfl
  | @attached setting text _ _ hassigned =>
      change (c.assignAttached setting text >>= takeAll rest) = _
      rw [hassigned]
      rfl
  | @behind setting value _ _ hassigned =>
      change (c.assign setting value >>= takeAll rest) = _
      rw [hassigned]
      rfl

theorem Step.takeAll_append {taken : List Argument} (hstep : Step taken c d)
    (rest : List Argument) : takeAll (taken ++ rest) c = takeAll rest d := by
  cases hstep with
  | operand text => rfl
  | unknown text => rfl
  | @named switch long attached flags setting value _ middle _ hspelling
      hraised hset =>
      rw [List.cons_append, takeAll_named hspelling (hset.hasValue rest),
        hraised]
      exact hset.takeBehind_append rest

theorem Steps.takeAll_append {taken : List Argument} (hsteps : Steps taken c d)
    (rest : List Argument) : takeAll (taken ++ rest) c = takeAll rest d := by
  induction hsteps with
  | nil => rfl
  | @cons first later c middle d hstep _ ih =>
      rw [List.append_assoc, hstep.takeAll_append, ih]

/-! ## Where no step is possible -/

/-- The first argument asks for help: it is spelled well, it has the value that
it needs, and the flags in it that stand before the one for help are raised
without an error. -/
inductive MeetsHelp : List Argument → Choices → Prop
  | intro {switch : Switch} {long : Bool} {attached : Option (List Char)}
      {earlier later : List Flag}
      {setting : Option (Setting × Option (List Char))} {rest : List Argument}
      {c d : Choices}
      (hspelling : Spelling.read switch long attached =
        .ok ⟨earlier ++ .help :: later, setting⟩)
      (hvalue : HasValue setting rest)
      (hraised : raiseAll earlier c.pastExpression = .ok d) :
      MeetsHelp (.named switch long attached :: rest) c

/-- An error is not a request for help. -/
def IsRefused {α : Type} (result : Except Stop α) : Prop :=
  ∃ error, result = .error (.refused error)

theorem raise_cases (flag : Flag) (c : Choices) :
    (∃ d, c.raise flag = .ok d) ∨ IsRefused (c.raise flag) ∨
      (c.raise flag = .error .help ∧ flag = .help) := by
  cases flag with
  | help => exact .inr (.inr ⟨rfl, rfl⟩)
  | quiet => exact .inl ⟨_, rfl⟩
  | advantage =>
      by_cases hmode : c.mode = .disadvantage
      · exact .inr (.inl ⟨_, if_pos hmode⟩)
      · exact .inl ⟨_, if_neg hmode⟩
  | disadvantage =>
      by_cases hmode : c.mode = .advantage
      · exact .inr (.inl ⟨_, if_pos hmode⟩)
      · exact .inl ⟨_, if_neg hmode⟩

theorem raiseAll_cons (flag : Flag) (rest : List Flag) (c : Choices) :
    raiseAll (flag :: rest) c = c.raise flag >>= raiseAll rest := rfl

theorem raiseAll_append_help {earlier : List Flag} (later : List Flag)
    (hraised : raiseAll earlier c = .ok d) :
    raiseAll (earlier ++ .help :: later) c = .error .help := by
  induction earlier generalizing c with
  | nil => rfl
  | cons flag rest ih =>
      rw [raiseAll_cons] at hraised
      rw [List.cons_append, raiseAll_cons]
      cases hfirst : c.raise flag with
      | error stop =>
          rw [hfirst] at hraised
          cases hraised
      | ok middle =>
          rw [hfirst] at hraised
          exact ih hraised

theorem raiseAll_cases (flags : List Flag) (c : Choices) :
    (∃ d, raiseAll flags c = .ok d) ∨ IsRefused (raiseAll flags c) ∨
      (raiseAll flags c = .error .help ∧ ∃ earlier later d,
        flags = earlier ++ .help :: later ∧ raiseAll earlier c = .ok d) := by
  induction flags generalizing c with
  | nil => exact .inl ⟨c, rfl⟩
  | cons flag rest ih =>
      rw [raiseAll_cons]
      rcases raise_cases flag c with
        ⟨middle, hfirst⟩ | ⟨error, hfirst⟩ | ⟨hfirst, rfl⟩
      · rw [hfirst]
        refine (ih middle).imp_right (Or.imp_right ?_)
        rintro ⟨hhelp, earlier, later, d, rfl, hraised⟩
        refine ⟨hhelp, flag :: earlier, later, d, rfl, ?_⟩
        rw [raiseAll_cons, hfirst]
        exact hraised
      · rw [hfirst]
        exact .inr (.inl ⟨error, rfl⟩)
      · rw [hfirst]
        exact .inr (.inr ⟨rfl, [], rest, c, rfl, rfl⟩)

theorem assign_cases (setting : Setting) (value : String) (c : Choices) :
    (∃ d, c.assign setting value = .ok d) ∨
      IsRefused (c.assign setting value) := by
  unfold assign
  cases setting with
  | times =>
      cases Text.readInt? value with
      | none => exact .inr ⟨_, rfl⟩
      | some n => exact .inl ⟨_, rfl⟩
  | seed =>
      cases Text.readInt? value with
      | none => exact .inr ⟨_, rfl⟩
      | some n => exact .inl ⟨_, rfl⟩
  | logLevel =>
      cases LogLevel.ofName? value with
      | none => exact .inr ⟨_, rfl⟩
      | some level => exact .inl ⟨_, rfl⟩

theorem assignAttached_cases (setting : Setting) (text : List Char)
    (c : Choices) :
    (∃ d, c.assignAttached setting text = .ok d) ∨
      IsRefused (c.assignAttached setting text) := by
  unfold assignAttached
  split
  next => exact .inl ⟨_, rfl⟩
  next => exact assign_cases setting _ c

theorem takeBehind_cases {setting : Option (Setting × Option (List Char))}
    {rest : List Argument} (hvalue : HasValue setting rest) (c : Choices) :
    (∃ value later d, rest = value ++ later ∧ Sets setting value c d) ∨
      IsRefused (takeBehind setting rest c) := by
  cases setting with
  | none => exact .inl ⟨[], rest, c, rfl, .nothing c⟩
  | some found =>
      obtain ⟨setting, given⟩ := found
      cases given with
      | some text =>
          rcases assignAttached_cases setting text c with
            ⟨d, hassigned⟩ | ⟨error, hrefused⟩
          · exact .inl ⟨[], rest, d, rfl, .attached hassigned⟩
          · refine .inr ⟨error, ?_⟩
            change (c.assignAttached setting text >>= takeAll rest) = _
            rw [hrefused]
            rfl
      | none =>
          obtain ⟨value, later, rfl⟩ := hvalue setting rfl
          rcases assign_cases setting value c with
            ⟨d, hassigned⟩ | ⟨error, hrefused⟩
          · exact .inl ⟨[_], later, d, rfl, .behind hassigned⟩
          · refine .inr ⟨error, ?_⟩
            change (c.assign setting value >>= takeAll later) = _
            rw [hrefused]
            rfl

/-! ## What can come next -/

theorem MeetsHelp.takeAll_eq {rest : List Argument}
    (hmeets : MeetsHelp rest c) : takeAll rest c = .error .help := by
  cases hmeets with
  | @intro switch long attached earlier later setting rest _ d hspelling
      hvalue hraised =>
      rw [takeAll_named hspelling hvalue, raiseAll_append_help later hraised]
      rfl

/-- There is nothing to take, or a step is possible, or the first argument is
in error, or it asks for help. -/
theorem next_cases (arguments : List Argument) (c : Choices) :
    arguments = [] ∨
    (∃ taken rest d, arguments = taken ++ rest ∧ taken ≠ [] ∧
      Step taken c d) ∨
    IsRefused (takeAll arguments c) ∨ MeetsHelp arguments c := by
  cases arguments with
  | nil => exact .inl rfl
  | cons first rest =>
      right
      cases first with
      | operand text =>
          exact .inl ⟨[_], rest, _, rfl, by simp, .operand text c⟩
      | unknown text =>
          exact .inl ⟨[_], rest, _, rfl, by simp, .unknown text c⟩
      | named switch long attached =>
          cases hspelling : Spelling.read switch long attached with
          | error error =>
              refine .inr (.inl ⟨error, ?_⟩)
              rw [takeAll, hspelling]
          | ok spelling =>
              obtain ⟨flags, setting⟩ := spelling
              by_cases hvalue : HasValue setting rest
              · have htaken := takeAll_named hspelling hvalue c
                rcases raiseAll_cases flags c.pastExpression with
                  ⟨middle, hraised⟩ | ⟨error, hraised⟩ |
                  ⟨-, earlier, later, d, rfl, hraised⟩
                · rw [hraised] at htaken
                  rcases takeBehind_cases hvalue middle with
                    ⟨value, later, d, rfl, hset⟩ | ⟨error, hrefused⟩
                  · exact .inl ⟨_ :: value, later, d, rfl, by simp,
                      .named hspelling hraised hset⟩
                  · exact .inr (.inl ⟨error, htaken.trans hrefused⟩)
                · rw [hraised] at htaken
                  exact .inr (.inl ⟨error, htaken⟩)
                · exact .inr (.inr (.intro hspelling hvalue hraised))
              · obtain ⟨needy, hrefused⟩ :=
                  takeAll_named_of_not_hasValue hspelling hvalue c
                exact .inr (.inl ⟨_, hrefused⟩)

/-- Some arguments are taken by steps, and then nothing is left, or the next
one is in error, or it asks for help. -/
theorem exists_steps (arguments : List Argument) (c : Choices) :
    ∃ taken rest d, arguments = taken ++ rest ∧ Steps taken c d ∧
      (rest = [] ∨ IsRefused (takeAll rest d) ∨ MeetsHelp rest d) := by
  induction hlength : arguments.length using Nat.strong_induction_on
    generalizing arguments c with
  | _ n ih =>
      rcases next_cases arguments c with
        hnil | ⟨taken, rest, d, rfl, hne, hstep⟩ | hrefused | hmeets
      · exact ⟨[], arguments, c, rfl, .nil c, .inl hnil⟩
      · have hshorter : rest.length < n := by
          have htaken := List.length_pos_iff.mpr hne
          rw [← hlength, List.length_append]
          omega
        obtain ⟨later, last, e, rfl, hsteps, hlast⟩ :=
          ih rest.length hshorter rest d rfl
        refine ⟨taken ++ later, last, e, ?_, .cons hstep hsteps, hlast⟩
        rw [List.append_assoc]
      · exact ⟨[], arguments, c, rfl, .nil c, .inr (.inl hrefused)⟩
      · exact ⟨[], arguments, c, rfl, .nil c, .inr (.inr hmeets)⟩

/-- All arguments are taken exactly if steps take them. -/
theorem takeAll_eq_ok_iff {arguments : List Argument} :
    takeAll arguments c = .ok d ↔ Steps arguments c d := by
  constructor
  · intro htaken
    obtain ⟨taken, rest, e, rfl, hsteps, hrest⟩ := exists_steps arguments c
    rw [hsteps.takeAll_append] at htaken
    rcases hrest with rfl | ⟨error, hrefused⟩ | hmeets
    · obtain rfl : e = d := Except.ok.inj htaken
      rwa [List.append_nil]
    · rw [hrefused] at htaken
      cases htaken
    · rw [hmeets.takeAll_eq] at htaken
      cases htaken
  · intro hsteps
    have htaken := hsteps.takeAll_append []
    rwa [List.append_nil] at htaken

/-- Help is what stops the arguments from being taken exactly if it is met
where steps lead. -/
theorem takeAll_eq_help_iff {arguments : List Argument} :
    takeAll arguments c = .error .help ↔
      ∃ taken rest d, arguments = taken ++ rest ∧ Steps taken c d ∧
        MeetsHelp rest d := by
  constructor
  · intro htaken
    obtain ⟨taken, rest, e, rfl, hsteps, hrest⟩ := exists_steps arguments c
    rw [hsteps.takeAll_append] at htaken
    rcases hrest with rfl | ⟨error, hrefused⟩ | hmeets
    · cases htaken
    · rw [hrefused] at htaken
      cases htaken
    · exact ⟨taken, rest, e, rfl, hsteps, hmeets⟩
  · rintro ⟨taken, rest, e, rfl, hsteps, hmeets⟩
    rw [hsteps.takeAll_append, hmeets.takeAll_eq]

/-! ## From the arguments to the settings -/

/-- What becomes of the choices made before the separator, if there is one. -/
def conclude (choices : Choices) (after : Option (List String)) :
    Except Stop Settings :=
  match after with
  | none => choices.finish
  | some rest => (choices.takeSeparated rest).finish

theorem finish_cases (c : Choices) :
    (∃ settings, c.finish = .ok settings ∧ settings.mode = c.mode) ∨
      IsRefused c.finish := by
  unfold finish
  split
  next => exact .inr ⟨_, rfl⟩
  next =>
    split
    next => exact .inl ⟨_, rfl, rfl⟩
    next => exact .inr ⟨_, rfl⟩

theorem mode_takeSeparated (after : List String) (c : Choices) :
    (c.takeSeparated after).mode = c.mode := by
  unfold takeSeparated
  split <;> rfl

theorem conclude_cases (c : Choices) (after : Option (List String)) :
    (∃ settings, c.conclude after = .ok settings ∧ settings.mode = c.mode) ∨
      IsRefused (c.conclude after) := by
  cases after with
  | none => exact c.finish_cases
  | some rest =>
      have hfinish := (c.takeSeparated rest).finish_cases
      rwa [mode_takeSeparated] at hfinish

end Choices

namespace Settings

theorem fst_splitSeparator (arguments : List String) :
    (splitSeparator arguments).1 = arguments.takeWhile (· != "--") := by
  unfold splitSeparator
  split
  next hnone =>
    rw [List.dropWhile_eq_nil_iff] at hnone
    exact (List.takeWhile_eq_self_iff.mpr hnone).symm
  next => rfl

theorem understand_eq_ok_iff {texts : List String}
    {understood : List Argument} :
    understand texts = .ok understood ↔
      List.Forall₂ (fun text argument => Argument.read text = .ok argument)
        texts understood := by
  unfold understand
  rw [Traversal.mapError_eq_ok_iff, Traversal.mapM_eq_ok_iff]

/-- The arguments before the separator are understood, and taken, and then the
choices are concluded with those behind it. -/
theorem read_eq (arguments : List String) :
    read arguments =
      understand (arguments.takeWhile (· != "--")) >>= fun understood =>
        Choices.takeAll understood {} >>= fun choices =>
          choices.conclude (splitSeparator arguments).2 := by
  rw [← fst_splitSeparator]
  rfl

end Settings

end TabletopDice.CommandLine
