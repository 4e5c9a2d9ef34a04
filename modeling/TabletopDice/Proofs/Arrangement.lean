import TabletopDice.CommandLine.Command
import TabletopDice.Proofs.Spelling
import TabletopDice.Proofs.Taking

/-!
# Wishes in any order

Besides an expression a user may wish for a number of rolls, a seed, a log
level, quiet output, and advantage or disadvantage.  A wish can be spelled in
several ways: by a letter or by a start of a long name, with its value behind
it or attached.  The wishes can stand in any order, with the expression anywhere
among them or last, behind the separator.  As long as no two wishes are of one
kind and the expression does not start with a dash, all these arrangements are
read as the same settings, and so their runs are the same.
-/

namespace TabletopDice.CommandLine

open Text

variable {σ : Type}

/-! ## Wishes -/

/-- A number as a setting takes it: a minus or none, and digits, which are not
too many. -/
structure GivenNumber where
  negative : Bool
  digits : List Char
  isDigits : isDigits digits = true
  length_le : digits.length ≤ digitLimit
  deriving DecidableEq

namespace GivenNumber

def text (number : GivenNumber) : String :=
  String.ofList (minus number.negative ++ number.digits)

def value (number : GivenNumber) : ℤ :=
  if number.negative then -(digitsValue number.digits : ℤ)
  else digitsValue number.digits

theorem integerText (number : GivenNumber) :
    IntegerText number.text number.negative number.digits where
  toList_eq := String.toList_ofList
  ne_nil := (isDigits_iff.mp number.isDigits).1
  isDigit := (isDigits_iff.mp number.isDigits).2

theorem readInt?_text (number : GivenNumber) :
    readInt? number.text = some number.value :=
  number.integerText.readInt?_eq number.length_le

end GivenNumber

inductive Wish where
  | times (number : GivenNumber)
  | seed (number : GivenNumber)
  | level (least : LogLevel)
  | quiet
  | advantage
  | disadvantage
  deriving DecidableEq

/-- Two wishes of one kind replace each other, or contradict each other. -/
inductive Wish.Kind where
  | times
  | seed
  | level
  | quiet
  | mode
  deriving DecidableEq

namespace Wish

def kind : Wish → Kind
  | times _ => .times
  | seed _ => .seed
  | level _ => .level
  | quiet => .quiet
  | advantage => .mode
  | disadvantage => .mode

def switch : Wish → Switch
  | times _ => .setting .times
  | seed _ => .setting .seed
  | level _ => .setting .logLevel
  | quiet => .flag .quiet
  | advantage => .flag .advantage
  | disadvantage => .flag .disadvantage

/-- What the switch takes as its value, if it takes one. -/
def value? : Wish → Option String
  | times number => some number.text
  | seed number => some number.text
  | level least => some least.name
  | _ => none

/-- The settings once the wish is met. -/
def grant : Wish → Settings → Settings
  | times number, settings => { settings with times := .value number.value }
  | seed number, settings =>
    { settings with seed := some (.value number.value) }
  | level least, settings => { settings with level := .value least }
  | quiet, settings => { settings with quiet := true }
  | advantage, settings => { settings with mode := .advantage }
  | disadvantage, settings => { settings with mode := .disadvantage }

/-- All ways to spell the wish as arguments. -/
inductive Spells (wish : Wish) : List String → Prop
  | long {stem : String} (hvalue : wish.value? = none)
      (hstem : wish.switch.Abbreviates stem.toList) :
      Spells wish ["--" ++ stem]
  | letter {letter : Char} (hvalue : wish.value? = none)
      (hletter : wish.switch.letter? = some letter) :
      Spells wish ["-" ++ letter.toString]
  | longApart {stem value : String} (hvalue : wish.value? = some value)
      (hstem : wish.switch.Abbreviates stem.toList) :
      Spells wish ["--" ++ stem, value]
  | longEquals {stem value : String} (hvalue : wish.value? = some value)
      (hstem : wish.switch.Abbreviates stem.toList) :
      Spells wish ["--" ++ stem ++ "=" ++ value]
  | letterApart {letter : Char} {value : String}
      (hvalue : wish.value? = some value)
      (hletter : wish.switch.letter? = some letter) :
      Spells wish ["-" ++ letter.toString, value]
  | letterAttached {letter : Char} {value : String}
      (hvalue : wish.value? = some value)
      (hletter : wish.switch.letter? = some letter) :
      Spells wish ["-" ++ letter.toString ++ value]
  | letterEquals {letter : Char} {value : String}
      (hvalue : wish.value? = some value)
      (hletter : wish.switch.letter? = some letter) :
      Spells wish ["-" ++ letter.toString ++ "=" ++ value]

end Wish

/-- The settings of an expression for which nothing is wished. -/
def Settings.unwished (text : String) : Settings where
  expression := text
  times := .value 1
  mode := .plain
  quiet := false
  seed := none
  level := .value .warning

/-- The settings with all wishes granted, one after the other. -/
def Settings.granting (wishes : List Wish) (settings : Settings) : Settings :=
  wishes.foldl (fun granted wish => wish.grant granted) settings

/-- The arguments spell the wishes one after the other, and the expression, if
there is one, stands at one place among them or behind the separator. -/
inductive Arranges : Option String → List Wish → List String → Prop
  | nothing : Arranges none [] []
  | separated (text : String) : Arranges (some text) [] ["--", text]
  | expression {text : String} {wishes : List Wish} {rest : List String}
      (hrest : Arranges none wishes rest) :
      Arranges (some text) wishes (text :: rest)
  | wish {expression? : Option String} {wish : Wish} {wishes : List Wish}
      {spelled rest : List String} (hspelled : wish.Spells spelled)
      (hrest : Arranges expression? wishes rest) :
      Arranges expression? (wish :: wishes) (spelled ++ rest)

/-! ## Granting in any order -/

namespace Wish

/-- A wish for a mode fits where no mode is chosen, and all others fit
anywhere. -/
def Fits (wish : Wish) (settings : Settings) : Prop :=
  wish.kind = .mode → settings.mode = .plain

theorem expression_grant (wish : Wish) (settings : Settings) :
    (wish.grant settings).expression = settings.expression := by
  cases wish <;> rfl

theorem mode_grant {wish : Wish} (hkind : wish.kind ≠ .mode)
    (settings : Settings) : (wish.grant settings).mode = settings.mode := by
  cases wish with
  | advantage => exact absurd rfl hkind
  | disadvantage => exact absurd rfl hkind
  | _ => rfl

theorem Fits.grant {wish granted : Wish} {settings : Settings}
    (hfits : wish.Fits settings) (hkinds : granted.kind ≠ wish.kind) :
    wish.Fits (granted.grant settings) := by
  intro hmode
  rw [mode_grant (hmode ▸ hkinds)]
  exact hfits hmode

/-- Wishes of two kinds change different settings. -/
theorem grant_comm {first second : Wish} (hkinds : first.kind ≠ second.kind)
    (settings : Settings) :
    first.grant (second.grant settings) =
      second.grant (first.grant settings) := by
  cases first <;> cases second <;>
    first
    | rfl
    | exact absurd rfl hkinds

end Wish

theorem Settings.granting_eq_of_perm {wishes others : List Wish}
    (hkinds : (wishes.map Wish.kind).Nodup) (hperm : wishes.Perm others)
    (settings : Settings) :
    settings.granting wishes = settings.granting others := by
  apply hperm.foldl_eq'
  intro first hfirst second hsecond granted
  by_cases hsame : first.kind = second.kind
  · rw [List.inj_on_of_nodup_map hkinds hfirst hsecond hsame]
  · exact (Wish.grant_comm hsame granted).symm

/-! ## Values -/

/-- A text that is an operand when it stands alone, and is taken as it is when
it is attached to a letter. -/
structure IsValue (value : String) : Prop where
  read : Argument.read value = .ok (.operand value)
  ne_empty : value ≠ ""
  head?_ne_equals : value.toList.head? ≠ some '='

theorem GivenNumber.isValue_text (number : GivenNumber) :
    IsValue number.text := by
  have htext := number.integerText
  obtain ⟨first, rest, hdigits⟩ := List.exists_cons_of_ne_nil htext.ne_nil
  have hequals : first ≠ '=' := by
    have hfirst : first ∈ number.digits := by
      rw [hdigits]
      exact List.mem_cons_self
    exact ne_of_isDigit (htext.isDigit first hfirst) rfl
  refine ⟨Argument.read_of_integerText htext, ?_, ?_⟩
  · intro hempty
    have hnil : minus number.negative ++ number.digits = [] := by
      rw [← htext.toList_eq, hempty]
      rfl
    exact htext.ne_nil (List.append_eq_nil_iff.mp hnil).2
  · rw [htext.toList_eq, hdigits]
    cases number.negative with
    | true => simp
    | false => simpa using hequals

theorem LogLevel.isValue_name (level : LogLevel) : IsValue level.name := by
  cases level <;> exact ⟨rfl, by decide, by decide⟩

theorem Wish.isValue_of_value?_eq {wish : Wish} {value : String}
    (hvalue : wish.value? = some value) : IsValue value := by
  cases wish with
  | times number =>
      cases hvalue
      exact number.isValue_text
  | seed number =>
      cases hvalue
      exact number.isValue_text
  | level least =>
      cases hvalue
      exact least.isValue_name
  | quiet => cases hvalue
  | advantage => cases hvalue
  | disadvantage => cases hvalue

/-- The separator is not an argument that is understood. -/
theorem Argument.ne_separator_of_read {text : String} {argument : Argument}
    (hread : read text = .ok argument) : text ≠ "--" := by
  rintro rfl
  have hambiguous : read "--" = .error (.ambiguous "--") := by rfl
  rw [hambiguous] at hread
  cases hread

/-! ## Spellings understood -/

namespace Settings

theorem understand_cons {text : String} {argument : Argument}
    {rest : List String} {understood : List Argument}
    (hread : Argument.read text = .ok argument)
    (hrest : understand rest = .ok understood) :
    understand (text :: rest) = .ok (argument :: understood) := by
  rw [understand_eq_ok_iff] at hrest ⊢
  exact .cons hread hrest

theorem understand_append {texts rest : List String}
    {understood later : List Argument}
    (htexts : understand texts = .ok understood)
    (hrest : understand rest = .ok later) :
    understand (texts ++ rest) = .ok (understood ++ later) := by
  rw [understand_eq_ok_iff] at htexts hrest ⊢
  exact List.rel_append htexts hrest

theorem separator_not_mem {texts : List String} {understood : List Argument}
    (hunderstood : understand texts = .ok understood) : "--" ∉ texts := by
  rw [understand_eq_ok_iff] at hunderstood
  induction hunderstood with
  | nil => exact List.not_mem_nil
  | cons hread _ ih =>
      rw [List.mem_cons, not_or]
      exact ⟨(Argument.ne_separator_of_read hread).symm, ih⟩

end Settings

namespace Wish

variable {wish : Wish}

/-- What the arguments that spell a wish are understood as. -/
inductive Means (wish : Wish) : List Argument → Prop
  | alone (long : Bool) (hvalue : wish.value? = none) :
      Means wish [.named wish.switch long none]
  | apart (long : Bool) {value : String} (hvalue : wish.value? = some value) :
      Means wish [.named wish.switch long none, .operand value]
  | attached (long : Bool) {value : String}
      (hvalue : wish.value? = some value) :
      Means wish [.named wish.switch long (some value.toList)]

theorem Spells.exists_means {spelled : List String}
    (hspelled : wish.Spells spelled) :
    ∃ understood, Settings.understand spelled = .ok understood ∧
      wish.Means understood := by
  have hnothing : Settings.understand [] = .ok [] := rfl
  cases hspelled with
  | long hvalue hstem =>
      have hread := Argument.read_long hstem
      exact ⟨_, Settings.understand_cons hread hnothing, .alone true hvalue⟩
  | letter hvalue hletter =>
      have hread := Argument.read_letter hletter
      exact ⟨_, Settings.understand_cons hread hnothing, .alone false hvalue⟩
  | longApart hvalue hstem =>
      have hread := Argument.read_long hstem
      have hbehind := (isValue_of_value?_eq hvalue).read
      exact ⟨_, Settings.understand_cons hread
        (Settings.understand_cons hbehind hnothing), .apart true hvalue⟩
  | @longEquals _ value hvalue hstem =>
      have hread := Argument.read_long_equals hstem value
      exact ⟨_, Settings.understand_cons hread hnothing,
        .attached true hvalue⟩
  | letterApart hvalue hletter =>
      have hread := Argument.read_letter hletter
      have hbehind := (isValue_of_value?_eq hvalue).read
      exact ⟨_, Settings.understand_cons hread
        (Settings.understand_cons hbehind hnothing), .apart false hvalue⟩
  | letterAttached hvalue hletter =>
      obtain ⟨-, hempty, hequals⟩ := isValue_of_value?_eq hvalue
      have hread := Argument.read_letter_attached hletter hempty hequals
      exact ⟨_, Settings.understand_cons hread hnothing,
        .attached false hvalue⟩
  | @letterEquals _ value hvalue hletter =>
      have hread := Argument.read_letter_equals hletter value
      exact ⟨_, Settings.understand_cons hread hnothing,
        .attached false hvalue⟩

theorem exists_flag_of_value?_eq_none (hvalue : wish.value? = none) :
    ∃ flag, wish.switch = .flag flag := by
  cases wish with
  | times => cases hvalue
  | seed => cases hvalue
  | level => cases hvalue
  | quiet => exact ⟨_, rfl⟩
  | advantage => exact ⟨_, rfl⟩
  | disadvantage => exact ⟨_, rfl⟩

theorem exists_setting_of_value?_eq_some {value : String}
    (hvalue : wish.value? = some value) :
    ∃ setting, wish.switch = .setting setting := by
  cases wish with
  | times => exact ⟨_, rfl⟩
  | seed => exact ⟨_, rfl⟩
  | level => exact ⟨_, rfl⟩
  | quiet => cases hvalue
  | advantage => cases hvalue
  | disadvantage => cases hvalue

end Wish

/-! ## Wishes granted one after the other -/

/-- The choices are those of the settings, and nothing is left over.  The
expression of the settings is chosen, or is still to come. -/
structure Choices.Represents (c : Choices) (expression? : Option String)
    (settings : Settings) : Prop where
  chosen : expression? = none → c.expression = some settings.expression
  awaited : ∀ text ∈ expression?,
    c.expression = none ∧ settings.expression = text
  times : c.times = settings.times
  mode : c.mode = settings.mode
  quiet : c.quiet = settings.quiet
  seed : c.seed = settings.seed
  level : c.level = settings.level
  extras : c.extras = []

namespace Choices

theorem represents_unwished (text : String) :
    Represents {} (some text) (Settings.unwished text) where
  chosen hnone := nomatch hnone
  awaited _ htext := ⟨rfl, Option.some.inj htext⟩
  times := rfl
  mode := rfl
  quiet := rfl
  seed := rfl
  level := rfl
  extras := rfl

namespace Represents

variable {c : Choices} {expression? : Option String} {settings : Settings}

theorem pastExpression (hc : c.Represents expression? settings) :
    c.pastExpression.Represents expression? settings :=
  { hc with }

theorem finish_eq (hc : c.Represents none settings) :
    c.finish = .ok settings := by
  unfold finish
  rw [hc.chosen rfl, hc.extras, hc.times, hc.mode, hc.quiet, hc.seed, hc.level]
  rfl

theorem takeOperand {text : String}
    (hc : c.Represents (some text) settings) :
    (c.takeOperand text).Represents none settings := by
  obtain ⟨hnone, htext⟩ := hc.awaited text rfl
  unfold Choices.takeOperand
  rw [hnone]
  exact { hc with
    chosen := fun _ => congrArg some htext.symm
    awaited := fun _ hmem => nomatch hmem }

theorem takeSeparated {text : String}
    (hc : c.Represents (some text) settings) :
    (c.takeSeparated [text]).Represents none settings := by
  obtain ⟨hnone, htext⟩ := hc.awaited text rfl
  unfold Choices.takeSeparated
  rw [hnone]
  exact { hc with
    chosen := fun _ => congrArg some htext.symm
    awaited := fun _ hmem => nomatch hmem
    extras := by simp [hc.extras] }

/-- A flag that is wished for is raised, since nothing contradicts it. -/
theorem exists_raise (hc : c.Represents expression? settings) {wish : Wish}
    (hfits : wish.Fits settings) {flag : Flag}
    (hswitch : wish.switch = .flag flag) :
    ∃ d, c.raise flag = .ok d ∧
      d.Represents expression? (wish.grant settings) := by
  cases wish with
  | times => cases hswitch
  | seed => cases hswitch
  | level => cases hswitch
  | quiet =>
      cases hswitch
      exact ⟨_, rfl, { hc with quiet := rfl }⟩
  | advantage =>
      cases hswitch
      have hmode : c.mode ≠ .disadvantage := by
        rw [hc.mode, hfits rfl]
        decide
      exact ⟨_, if_neg hmode, { hc with mode := rfl }⟩
  | disadvantage =>
      cases hswitch
      have hmode : c.mode ≠ .advantage := by
        rw [hc.mode, hfits rfl]
        decide
      exact ⟨_, if_neg hmode, { hc with mode := rfl }⟩

theorem exists_assign (hc : c.Represents expression? settings) {wish : Wish}
    {setting : Setting} (hswitch : wish.switch = .setting setting)
    {value : String} (hvalue : wish.value? = some value) :
    ∃ d, c.assign setting value = .ok d ∧
      d.Represents expression? (wish.grant settings) := by
  cases wish with
  | times number =>
      cases hswitch
      cases hvalue
      unfold assign
      dsimp only
      rw [number.readInt?_text]
      exact ⟨_, rfl, { hc with times := rfl }⟩
  | seed number =>
      cases hswitch
      cases hvalue
      unfold assign
      dsimp only
      rw [number.readInt?_text]
      exact ⟨_, rfl, { hc with seed := rfl }⟩
  | level least =>
      cases hswitch
      cases hvalue
      unfold assign
      dsimp only
      rw [LogLevel.ofName?_name]
      exact ⟨_, rfl, { hc with level := rfl }⟩
  | quiet => cases hswitch
  | advantage => cases hswitch
  | disadvantage => cases hswitch

end Represents

theorem assignAttached_toList {value : String} (hvalue : IsValue value)
    (setting : Setting) (c : Choices) :
    c.assignAttached setting value.toList = c.assign setting value := by
  have hseparator : value.toList ≠ ['-', '-'] := by
    intro hsame
    have hne := Argument.ne_separator_of_read hvalue.read
    exact hne (String.toList_inj.mp (hsame.trans (by rfl)))
  unfold assignAttached
  rw [if_neg hseparator, String.ofList_toList]

end Choices

open Choices in
/-- A wish that fits is granted in one step. -/
theorem Wish.Means.exists_step {wish : Wish} {understood : List Argument}
    (hmeans : wish.Means understood) {c : Choices}
    {expression? : Option String} {settings : Settings}
    (hfits : wish.Fits settings) (hc : c.Represents expression? settings) :
    ∃ d, Step understood c d ∧
      d.Represents expression? (wish.grant settings) := by
  have hpast := hc.pastExpression
  cases hmeans with
  | alone long hvalue =>
      obtain ⟨flag, hswitch⟩ := exists_flag_of_value?_eq_none hvalue
      obtain ⟨d, hraised, hd⟩ := hpast.exists_raise hfits hswitch
      have hall : raiseAll [flag] c.pastExpression = .ok d := by
        rw [raiseAll_cons, hraised]
        rfl
      rw [hswitch]
      exact ⟨d, .named rfl hall (.nothing d), hd⟩
  | apart long hvalue =>
      obtain ⟨setting, hswitch⟩ := exists_setting_of_value?_eq_some hvalue
      obtain ⟨d, hassigned, hd⟩ := hpast.exists_assign hswitch hvalue
      rw [hswitch]
      exact ⟨d, .named rfl rfl (.behind hassigned), hd⟩
  | attached long hvalue =>
      obtain ⟨setting, hswitch⟩ := exists_setting_of_value?_eq_some hvalue
      obtain ⟨d, hassigned, hd⟩ := hpast.exists_assign hswitch hvalue
      rw [← assignAttached_toList (isValue_of_value?_eq hvalue)] at hassigned
      rw [hswitch]
      exact ⟨d, .named rfl rfl (.attached hassigned), hd⟩

/-- Arranged wishes are granted one after the other, from any choices made
before: the induction is on the arrangement, and what is carried along is which
settings the choices are those of. -/
theorem Arranges.exists_conclude {expression? : Option String}
    {wishes : List Wish} {arguments : List String}
    (harranges : Arranges expression? wishes arguments) {settings : Settings}
    (htext : settings.expression.toList.head? ≠ some '-')
    (hkinds : (wishes.map Wish.kind).Nodup)
    (hfits : ∀ wish ∈ wishes, wish.Fits settings) {c : Choices}
    (hc : c.Represents expression? settings) :
    ∃ understood d,
      Settings.understand (Settings.splitSeparator arguments).1 =
        .ok understood ∧
      Choices.takeAll understood c = .ok d ∧
      d.conclude (Settings.splitSeparator arguments).2 =
        .ok (settings.granting wishes) := by
  induction harranges generalizing settings c with
  | nothing => exact ⟨[], c, rfl, rfl, hc.finish_eq⟩
  | separated text => exact ⟨[], c, rfl, rfl, hc.takeSeparated.finish_eq⟩
  | @expression text wishes rest _ ih =>
      obtain ⟨understood, d, hunderstood, htaken, hconcluded⟩ :=
        ih htext hkinds hfits hc.takeOperand
      have hread : Argument.read text = .ok (.operand text) := by
        rw [(hc.awaited text rfl).2] at htext
        exact Argument.read_of_head?_ne_minus htext
      have hsingle : Settings.understand [text] = .ok [.operand text] :=
        Settings.understand_cons hread rfl
      rw [← List.singleton_append, Settings.splitSeparator_append
        (Settings.separator_not_mem hsingle)]
      exact ⟨_, d, Settings.understand_cons hread hunderstood, htaken,
        hconcluded⟩
  | @wish expression? first wishes spelled rest hspelled _ ih =>
      rw [List.map_cons, List.nodup_cons] at hkinds
      obtain ⟨hfirst, hlater⟩ := List.forall_mem_cons.mp hfits
      have hstill : ∀ wish ∈ wishes, wish.Fits (first.grant settings) := by
        intro wish hmem
        refine (hlater wish hmem).grant fun hsame => ?_
        exact hkinds.1 (hsame ▸ List.mem_map_of_mem hmem)
      obtain ⟨spoken, hspoken, hmeans⟩ := hspelled.exists_means
      obtain ⟨middle, hstep, hmiddle⟩ := hmeans.exists_step hfirst hc
      rw [← first.expression_grant] at htext
      obtain ⟨understood, d, hunderstood, htaken, hconcluded⟩ :=
        ih htext hkinds.2 hstill hmiddle
      rw [Settings.splitSeparator_append (Settings.separator_not_mem hspoken)]
      refine ⟨spoken ++ understood, d,
        Settings.understand_append hspoken hunderstood, ?_, hconcluded⟩
      rw [hstep.takeAll_append, htaken]

theorem Arranges.read_eq {text : String} {wishes : List Wish}
    {arguments : List String}
    (harranges : Arranges (some text) wishes arguments)
    (htext : text.toList.head? ≠ some '-')
    (hkinds : (wishes.map Wish.kind).Nodup) :
    Settings.read arguments =
      .ok ((Settings.unwished text).granting wishes) := by
  obtain ⟨understood, d, hunderstood, htaken, hconcluded⟩ :=
    harranges.exists_conclude htext hkinds (fun _ _ _ => rfl)
      (Choices.represents_unwished text)
  rw [Settings.read_eq, ← Settings.fst_splitSeparator, hunderstood]
  change (Choices.takeAll understood {} >>= fun choices =>
    choices.conclude (Settings.splitSeparator arguments).2) = _
  rw [htaken]
  exact hconcluded

/-- Neither the order in which wishes are made, nor the way in which each is
spelled, nor the place of the expression makes a difference: the arguments are
read as the same settings, and the runs leave the same report and the same
feed. -/
theorem run_of_rearranged_wishes (source : Source σ) (start : σ)
    {text : String} (htext : text.toList.head? ≠ some '-')
    {wishes others : List Wish} (hkinds : (wishes.map Wish.kind).Nodup)
    (hperm : wishes.Perm others) {arguments rearranged : List String}
    (harguments : Arranges (some text) wishes arguments)
    (hrearranged : Arranges (some text) others rearranged) :
    Settings.read arguments =
        .ok ((Settings.unwished text).granting wishes) ∧
      Settings.read rearranged = Settings.read arguments ∧
      run source start rearranged = run source start arguments := by
  have hread := harguments.read_eq htext hkinds
  have hothers : (others.map Wish.kind).Nodup :=
    (hperm.map Wish.kind).nodup_iff.mp hkinds
  have hsame : Settings.read rearranged = Settings.read arguments := by
    rw [hrearranged.read_eq htext hothers, hread,
      Settings.granting_eq_of_perm hkinds hperm]
  refine ⟨hread, hsame, ?_⟩
  unfold run
  rw [hsame]

/-- Numbers with a minus and with a leading zero, each wish spelled in two ways,
and the expression first among the wishes and then behind the separator. -/
theorem run_of_rearranged_wishes_of_every_kind :
    let source := Source.linear 3 7
    let two : GivenNumber := ⟨false, ['2'], by decide, by decide⟩
    let seven : GivenNumber := ⟨true, ['0', '7'], by decide, by decide⟩
    let wishes : List Wish :=
      [.times two, .seed seven, .level .debug, .quiet, .advantage]
    let arguments :=
      ["--ti=2", "d20", "--seed", "-07", "--l", "DEBUG", "-q", "--ad"]
    let rearranged :=
      ["--a", "--quie", "--log-level=DEBUG", "--s=-07", "-t2", "--", "d20"]
    (wishes.map Wish.kind).Nodup ∧
      Arranges (some "d20") wishes arguments ∧
      Arranges (some "d20") wishes.reverse rearranged ∧
      Settings.read arguments = .ok ⟨"d20", .value 2, .advantage, true,
        some (.value (-7)), .value .debug⟩ ∧
      Settings.read rearranged = Settings.read arguments ∧
      run source 0 rearranged = run source 0 arguments := by
  intro source two seven wishes arguments rearranged
  have htext : "d20".toList.head? ≠ some '-' := by decide
  have hkinds : (wishes.map Wish.kind).Nodup := by decide
  have hperm : wishes.Perm wishes.reverse := (List.reverse_perm wishes).symm
  have harguments : Arranges (some "d20") wishes arguments :=
    .wish (@Wish.Spells.longEquals (.times two) "ti" "2" rfl (by decide)) <|
    .expression <|
    .wish (@Wish.Spells.longApart (.seed seven) "seed" "-07" rfl
      (Switch.abbreviates_longName (.setting .seed))) <|
    .wish (@Wish.Spells.longApart (.level .debug) "l" "DEBUG" rfl
      (by decide)) <|
    .wish (@Wish.Spells.letter .quiet 'q' rfl rfl) <|
    .wish (@Wish.Spells.long .advantage "ad" rfl (by decide)) .nothing
  have hrearranged : Arranges (some "d20") wishes.reverse rearranged :=
    .wish (@Wish.Spells.long .advantage "a" rfl (by decide)) <|
    .wish (@Wish.Spells.long .quiet "quie" rfl (by decide)) <|
    .wish (@Wish.Spells.longEquals (.level .debug) "log-level" "DEBUG" rfl
      (Switch.abbreviates_longName (.setting .logLevel))) <|
    .wish (@Wish.Spells.longEquals (.seed seven) "s" "-07" rfl
      (by decide)) <|
    .wish (@Wish.Spells.letterAttached (.times two) 't' "2" rfl rfl) <|
    .separated "d20"
  obtain ⟨hread, hsame, hrun⟩ := run_of_rearranged_wishes source 0 htext hkinds
    hperm harguments hrearranged
  exact ⟨hkinds, harguments, hrearranged, hread, hsame, hrun⟩

end TabletopDice.CommandLine
