import TabletopDice.Roll.Throw
import TabletopDice.Proofs.Plan

/-!
# The plan of an expression

Which integers an expression asks for depends on its terms and on the mode,
and not on what is answered.  A single twenty-sided die takes two answers in
the modes that keep one of them, and every other term takes one answer for
each die.  So the answers are dealt to the terms in blocks, and each block
makes one detail.
-/

namespace TabletopDice

open Rolling

variable {σ : Type}

/-! ## One term -/

/-- Whether the term is rolled twice to keep one of the two rolls. -/
def DiceTerm.IsDoubled (mode : Mode) (term : DiceTerm) : Prop :=
  mode ≠ .plain ∧ term.sides = 20 ∧ term.count = 1

instance (mode : Mode) (term : DiceTerm) : Decidable (term.IsDoubled mode) :=
  inferInstanceAs (Decidable (_ ∧ _))

def DiceTerm.requests (mode : Mode) (term : DiceTerm) : List Request :=
  if term.IsDoubled mode then [⟨1, 20⟩, ⟨1, 20⟩]
  else List.replicate term.count.toNat ⟨1, term.sides⟩

def Mode.keep : Mode → List ℤ → List ℤ
  | .advantage, [first, second] => [max first second]
  | .disadvantage, [first, second] => [min first second]
  | _, rolls => rolls

/-- The rolls that a term records of its block of answers. -/
def DiceTerm.recorded (mode : Mode) (term : DiceTerm) (block : List ℤ) :
    List ℤ :=
  if term.IsDoubled mode then mode.keep block else block

def Mode.resolved (mode : Mode) (rolls : List ℤ) : List Resolution :=
  match rolls, mode.keep rolls with
  | [first, second], [kept] => [{ mode, first, second, kept }]
  | _, _ => []

def DiceTerm.resolved (mode : Mode) (term : DiceTerm) (block : List ℤ) :
    List Resolution :=
  if term.IsDoubled mode then mode.resolved block else []

@[simp] theorem Mode.resolved_nil (mode : Mode) : mode.resolved [] = [] := rfl

@[simp] theorem Mode.resolved_singleton (mode : Mode) (first : ℤ) :
    mode.resolved [first] = [] := rfl

theorem Mode.keep_pair {mode : Mode} {choose : ℤ → ℤ → ℤ}
    (hchoose : mode.choice? = some choose) (first second : ℤ) :
    mode.keep [first, second] = [choose first second] := by
  cases mode with
  | plain => cases hchoose
  | advantage =>
      obtain rfl : max = choose := Option.some.inj hchoose
      rfl
  | disadvantage =>
      obtain rfl : min = choose := Option.some.inj hchoose
      rfl

theorem Mode.keep_twice {mode : Mode} (hmode : mode ≠ .plain) (roll : ℤ) :
    mode.keep [roll, roll] = [roll] := by
  cases mode with
  | plain => exact absurd rfl hmode
  | advantage => exact congrArg (fun kept => [kept]) (max_self roll)
  | disadvantage => exact congrArg (fun kept => [kept]) (min_self roll)

theorem Mode.choice?_eq_none_iff {mode : Mode} :
    mode.choice? = none ↔ mode = .plain := by
  cases mode <;> simp [Mode.choice?]

theorem Mode.ne_plain_of_choice?_eq_some {mode : Mode} {choose : ℤ → ℤ → ℤ}
    (hchoose : mode.choice? = some choose) : mode ≠ .plain := by
  rintro rfl
  cases hchoose

theorem Mode.resolved_pair {mode : Mode} {choose : ℤ → ℤ → ℤ}
    (hchoose : mode.choice? = some choose) (first second : ℤ) :
    mode.resolved [first, second] =
      [{ mode, first, second, kept := choose first second }] := by
  unfold Mode.resolved
  rw [Mode.keep_pair hchoose]

/-- Two rolls are made one after the other, and the resolution is recorded
once both are known. -/
theorem follows_keepOne (source : Source σ) {mode : Mode}
    {choose : ℤ → ℤ → ℤ} (hchoose : mode.choice? = some choose) :
    Follows source (keepOne source mode choose) [⟨1, 20⟩, ⟨1, 20⟩]
      (fun answers => choose (answers.headD 0) (answers.tail.headD 0))
      mode.resolved where
  resolved_nil := mode.resolved_nil
  run feed := by
    have hpush (request : Request) : (feed.requests.push request).push request =
        feed.requests ++ #[request, request] := by
      apply Array.toList_inj.mp
      simp
    rcases source.draw_cases ⟨1, 20⟩ feed.state with
      ⟨failure, next, hfirst⟩ | ⟨first, next, hfirst⟩
    · simp [keepOne, draw, bind, EStateM.bind, hfirst,
        source.ask_cons_of_error hfirst, Feed.after]
    rcases source.draw_cases ⟨1, 20⟩ next with
      ⟨failure, last, hsecond⟩ | ⟨second, last, hsecond⟩
    -- refused between the two rolls: the request counts, the first roll is lost
    · simp [keepOne, draw, bind, EStateM.bind, hfirst, hsecond,
        source.ask_cons_of_ok hfirst, source.ask_cons_of_error hsecond,
        Feed.after, hpush]
    · have hresolved := Mode.resolved_pair hchoose first second
      simp [keepOne, draw, resolve_apply, bind, EStateM.bind, hfirst, hsecond,
        hresolved, source.ask_cons_of_ok hfirst, source.ask_cons_of_ok hsecond,
        Feed.after, hpush, pure, EStateM.pure]

theorem DiceTerm.throwDice_of_isDoubled {mode : Mode} {term : DiceTerm}
    (source : Source σ) (hterm : term.IsDoubled mode) :
    ∃ choose, mode.choice? = some choose ∧
      term.throwDice source mode =
        repeated 1 (keepOne source mode choose) := by
  obtain ⟨hmode, hsides, hcount⟩ := hterm
  have hchoice : mode.choice? ≠ none :=
    fun hnone => hmode (Mode.choice?_eq_none_iff.mp hnone)
  obtain ⟨choose, hchoose⟩ := Option.ne_none_iff_exists'.mp hchoice
  have hlone : term.isLoneD20 = true := by
    simp [DiceTerm.isLoneD20, hsides, hcount]
  refine ⟨choose, hchoose, ?_⟩
  unfold DiceTerm.throwDice
  rw [hchoose, hlone]

theorem DiceTerm.throwDice_of_not_isDoubled {mode : Mode} {term : DiceTerm}
    (source : Source σ) (hterm : ¬ term.IsDoubled mode) :
    term.throwDice source mode =
      repeated term.count.toNat (draw source 1 term.sides) := by
  unfold DiceTerm.throwDice
  split
  next choose hchoose hlone =>
    have hmode := Mode.ne_plain_of_choice?_eq_some hchoose
    have hboth : term.sides = 20 ∧ term.count = 1 := by
      simpa [DiceTerm.isLoneD20] using hlone
    exact absurd ⟨hmode, hboth⟩ hterm
  next => rfl

theorem DiceTerm.follows_throwDice (source : Source σ) (mode : Mode)
    (term : DiceTerm) :
    Follows source (term.throwDice source mode) (term.requests mode)
      (term.recorded mode) (term.resolved mode) := by
  by_cases hterm : term.IsDoubled mode
  · obtain ⟨choose, hchoose, hdice⟩ :=
      DiceTerm.throwDice_of_isDoubled source hterm
    rw [hdice, DiceTerm.requests, if_pos hterm]
    apply ((follows_keepOne source hchoose).repeated 1).congr
    · intro answers hlength
      obtain ⟨first, second, rfl⟩ := List.length_eq_two.mp hlength
      rw [DiceTerm.recorded, if_pos hterm, Mode.keep_pair hchoose]
      simp
    · intro answers hlength
      have hall : answers.take 2 = answers := List.take_of_length_le hlength
      rw [DiceTerm.resolved, if_pos hterm]
      simp [hall]
  · rw [DiceTerm.throwDice_of_not_isDoubled source hterm, DiceTerm.requests,
      if_neg hterm]
    apply (Follows.of_draws 1 term.sides term.count.toNat).congr
    · intro answers _
      exact (if_neg hterm).symm
    · intro answers _
      exact (if_neg hterm).symm

def DiceTerm.detail (mode : Mode) (term : DiceTerm) (block : List ℤ) :
    Detail where
  term := term
  rolls := term.recorded mode block
  subtotal := term.sign * (term.recorded mode block).sum

theorem DiceTerm.follows_throw (source : Source σ) (mode : Mode)
    (term : DiceTerm) :
    Follows source (term.throw source mode) (term.requests mode)
      (term.detail mode) (term.resolved mode) :=
  (term.follows_throwDice source mode).map (Detail.ofRolls term)

/-! ## Whole expressions -/

namespace Expression

/-- The requests of one roll, those of each term in order. -/
def plan (mode : Mode) (expr : Expression) : List Request :=
  expr.dice.flatMap (DiceTerm.requests mode)

/-- The answers of one roll, dealt to the terms. -/
def dealt (mode : Mode) (expr : Expression) (answers : List ℤ) :
    List (List ℤ) :=
  blocks (expr.dice.map (DiceTerm.requests mode)) answers

def details (mode : Mode) (expr : Expression) (answers : List ℤ) :
    List Detail :=
  List.zipWith (DiceTerm.detail mode) expr.dice (expr.dealt mode answers)

def outcome (mode : Mode) (expr : Expression) (answers : List ℤ) : Roll where
  details := expr.details mode answers
  flatTotal := (expr.modifiers.map fun m => m.sign * m.value).sum
  total := (expr.modifiers.map fun m => m.sign * m.value).sum +
    ((expr.details mode answers).map Detail.subtotal).sum

def resolutions (mode : Mode) (expr : Expression) (answers : List ℤ) :
    List Resolution :=
  (List.zipWith (DiceTerm.resolved mode) expr.dice
    (expr.dealt mode answers)).flatten

theorem dealt_take (mode : Mode) (expr : Expression) (answers : List ℤ) :
    expr.dealt mode (answers.take (expr.plan mode).length) =
      expr.dealt mode answers :=
  blocks_take (expr.dice.map (DiceTerm.requests mode)) answers

theorem details_take (mode : Mode) (expr : Expression) (answers : List ℤ) :
    expr.details mode (answers.take (expr.plan mode).length) =
      expr.details mode answers := by
  unfold details
  rw [dealt_take]

theorem map_term_details (mode : Mode) (expr : Expression)
    (answers : List ℤ) :
    (expr.details mode answers).map Detail.term = expr.dice := by
  have hlength : (expr.dealt mode answers).length = expr.dice.length := by
    simp [dealt]
  have hzip : (expr.details mode answers).map Detail.term =
      (expr.dice.zip (expr.dealt mode answers)).map Prod.fst := by
    unfold details List.zip
    rw [List.map_zipWith, List.map_zipWith]
    rfl
  rw [hzip, List.map_fst_zip hlength.ge]

theorem follows_throw (source : Source σ) (mode : Mode) (expr : Expression) :
    Follows source (expr.throw source mode) (expr.plan mode)
      (expr.outcome mode) (expr.resolutions mode) := by
  have hdice := Follows.mapM (DiceTerm.follows_throw source mode) expr.dice
  have hroll := hdice.map fun details => Roll.ofDetails details expr.flatTotal
  refine hroll.congr ?_ (fun _ _ => rfl)
  intro answers _
  exact congrArg _ (Int.add_comm _ _)

/-- A script of exactly the answers of a plan is granted in full and used
up. -/
theorem throw_script (expr : Expression) (mode : Mode) {values : List ℤ}
    (hlength : values.length = (expr.plan mode).length) :
    ∃ after, expr.throw Source.script mode (.initial values) =
        .ok (expr.outcome mode values) after ∧
      after.requests.toList = expr.plan mode ∧ after.state = [] := by
  have hask : Source.script.ask (expr.plan mode) values =
      ⟨values, none, []⟩ := by
    rw [Source.ask_script, ← hlength, if_pos (Nat.le_refl _),
      List.take_length, List.drop_length]
  have hrun := (expr.follows_throw Source.script mode).run (.initial values)
  dsimp only [Feed.initial] at hrun
  rw [hask] at hrun
  refine ⟨_, hrun, ?_, rfl⟩
  simp [Feed.after, hlength]

theorem roll_mode_name (source : Source σ) (mode : Mode) (expr : Expression) :
    expr.roll source mode.name = expr.throw source mode := by
  simp [roll, checkMode, require]

theorem roll_of_ofName?_none (source : Source σ) (expr : Expression)
    {mode : String} (hmode : Mode.ofName? mode = none) (feed : Feed σ) :
    expr.roll source mode feed = .error (.rejected (.mode mode)) feed := by
  have hunknown : checkMode mode = .error (.rejected (.mode mode)) := by
    unfold checkMode
    rw [hmode]
  unfold roll
  rw [hunknown, require_error_bind]

theorem roll_of_ofName?_some (source : Source σ) (expr : Expression)
    {name : String} {mode : Mode} (hmode : Mode.ofName? name = some mode) :
    expr.roll source name = expr.throw source mode := by
  have hknown : checkMode name = .ok mode := by
    unfold checkMode
    rw [hmode]
  unfold roll
  rw [hknown, require_ok_bind]

theorem rollMany_of_times_lt (source : Source σ) (expr : Expression)
    {times : ℤ} (htimes : times < 1) (mode : String) (feed : Feed σ) :
    expr.rollMany source times mode feed =
      .error (.ofTimes times) feed := by
  have hcheck : checkTimes times = .error (.ofTimes times) := if_pos htimes
  unfold rollMany
  rw [hcheck, require_error_bind]

theorem rollMany_of_ofName?_none (source : Source σ) (expr : Expression)
    {times : ℤ} (htimes : 1 ≤ times) {mode : String}
    (hmode : Mode.ofName? mode = none) (feed : Feed σ) :
    expr.rollMany source times mode feed =
      .error (.rejected (.mode mode)) feed := by
  have hcheck : checkTimes times = .ok times.toNat := if_neg (by omega)
  have hunknown : checkMode mode = .error (.rejected (.mode mode)) := by
    unfold checkMode
    rw [hmode]
  unfold rollMany
  rw [hcheck, require_ok_bind, hunknown, require_error_bind]

theorem rollMany_of_ofName?_some (source : Source σ) (expr : Expression)
    {times : ℤ} (htimes : 1 ≤ times) {name : String} {mode : Mode}
    (hmode : Mode.ofName? name = some mode) :
    expr.rollMany source times name =
      repeated times.toNat (expr.throw source mode) := by
  have hcheck : checkTimes times = .ok times.toNat := if_neg (by omega)
  have hknown : checkMode name = .ok mode := by
    unfold checkMode
    rw [hmode]
  unfold rollMany
  rw [hcheck, require_ok_bind, hknown, require_ok_bind]

/-- Many rolls are made only if at least one is asked for, in a known mode. -/
theorem rollMany_eq_ok_iff {source : Source σ} {expr : Expression}
    {times : ℤ} {name : String} {feed after : Feed σ} {rolls : List Roll} :
    expr.rollMany source times name feed = .ok rolls after ↔
      1 ≤ times ∧ ∃ mode, Mode.ofName? name = some mode ∧
        repeated times.toNat (expr.throw source mode) feed =
          .ok rolls after := by
  by_cases htimes : times < 1
  · rw [rollMany_of_times_lt source expr htimes]
    simp [htimes]
  · have hpos : 1 ≤ times := by omega
    cases hmode : Mode.ofName? name with
    | none =>
        rw [rollMany_of_ofName?_none source expr hpos hmode]
        simp
    | some mode =>
        rw [rollMany_of_ofName?_some source expr hpos hmode]
        simp [hpos]

theorem length_of_rollMany_eq_ok {source : Source σ} {expr : Expression}
    {times : ℤ} {name : String} {feed after : Feed σ} {rolls : List Roll}
    (hrolls : expr.rollMany source times name feed = .ok rolls after) :
    1 ≤ times ∧ (rolls.length : ℤ) = times := by
  obtain ⟨htimes, mode, -, hthrows⟩ := rollMany_eq_ok_iff.mp hrolls
  have hlength := length_of_repeated_eq_ok hthrows
  omega

/-- Against a script, one roll makes exactly the requests of its plan and uses
up one value for each of them.  Every term, in order, records its own block of
the script, and the subtotals and modifiers add up to the total.  A script that
is too short is asked once more than it can answer, and there is no roll. -/
theorem roll_script (mode : Mode) (expr : Expression) (values : List ℤ) :
    ((expr.plan mode).length ≤ values.length →
      ∃ roll feed,
        expr.roll Source.script mode.name (.initial values) = .ok roll feed ∧
        feed.requests.toList = expr.plan mode ∧
        feed.state = values.drop (expr.plan mode).length ∧
        roll.details.map Detail.term = expr.dice ∧
        roll.details = List.zipWith
          (fun term block =>
            { term
              rolls := term.recorded mode block
              subtotal := term.sign * (term.recorded mode block).sum })
          expr.dice (expr.dealt mode values) ∧
        roll.flatTotal = (expr.modifiers.map fun m => m.sign * m.value).sum ∧
        roll.total =
          roll.flatTotal + (roll.details.map Detail.subtotal).sum) ∧
    (values.length < (expr.plan mode).length →
      ∃ feed,
        expr.roll Source.script mode.name (.initial values) =
          .error (.draw .exhausted) feed ∧
        feed.requests.toList = (expr.plan mode).take (values.length + 1)) := by
  have hrun := (expr.follows_throw Source.script mode).run (.initial values)
  dsimp only [Feed.initial] at hrun
  rw [Source.ask_script] at hrun
  rw [roll_mode_name]
  constructor
  · intro hlong
    dsimp only at hrun
    rw [if_pos hlong] at hrun
    refine ⟨_, _, hrun, ?_, rfl, map_term_details mode expr _,
      details_take mode expr values, rfl, rfl⟩
    simp [Feed.after, hlong]
  · intro hshort
    dsimp only at hrun
    rw [if_neg (by omega)] at hrun
    refine ⟨_, hrun, ?_⟩
    simp [Feed.after, hshort.le]

theorem roll_script_lone_d20 :
    ∃ result feed,
      roll Source.script
          ⟨[⟨1, 20, -1⟩, ⟨-3, 6, 1⟩, ⟨2, 20, 1⟩], [⟨5, -1⟩]⟩
          Mode.advantage.name (.initial [3, 25, 7, 0, 9]) = .ok result feed ∧
        feed.requests.toList = List.replicate 4 ⟨1, 20⟩ ∧
        feed.state = [9] ∧
        result.details.map Detail.rolls = [[25], [], [7, 0]] ∧
        result.total = -23 := by
  obtain ⟨result, feed, hrun, hrequests, hstate, -, hdetails, hflat, htotal⟩ :=
    (roll_script .advantage
      ⟨[⟨1, 20, -1⟩, ⟨-3, 6, 1⟩, ⟨2, 20, 1⟩], [⟨5, -1⟩]⟩
      [3, 25, 7, 0, 9]).1 (by decide)
  refine ⟨result, feed, hrun, ?_, ?_, ?_, ?_⟩
  · rw [hrequests]
    rfl
  · rw [hstate]
    rfl
  · rw [hdetails]
    rfl
  · rw [htotal, hflat, hdetails]
    rfl

end Expression

end TabletopDice
