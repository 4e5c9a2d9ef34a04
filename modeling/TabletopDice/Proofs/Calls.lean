import TabletopDice.Proofs.Answers
import TabletopDice.Proofs.Throw

/-!
# Calls that share a source

Texts are read and expressions rolled, once or many times, in any order, and
all draws come from one source.  A call either fails before it draws, and then
leaves the feed as it was, or it follows a plan.  So a call that fails can be
struck out of a sequence, and a call that rolls many times is the same as that
many calls that roll once.
-/

namespace TabletopDice

open Rolling

variable {σ α : Type}

/-! ## Outcomes -/

namespace Rolling

/-- What a computation gives and the feed that it leaves, in either case. -/
def outcome {ε : Type} (action : EStateM ε (Feed σ) α) (feed : Feed σ) :
    Except ε α × Feed σ :=
  match action feed with
  | .ok value after => (.ok value, after)
  | .error failure after => (.error failure, after)

theorem outcome_of_ok {ε : Type} {action : EStateM ε (Feed σ) α}
    {feed after : Feed σ} {value : α}
    (haction : action feed = .ok value after) :
    outcome action feed = (.ok value, after) := by
  unfold outcome
  rw [haction]

theorem outcome_of_error {ε : Type} {action : EStateM ε (Feed σ) α}
    {feed after : Feed σ} {failure : ε}
    (haction : action feed = .error failure after) :
    outcome action feed = (.error failure, after) := by
  unfold outcome
  rw [haction]

end Rolling

/-! ## Calls -/

inductive Call where
  | read (text : Option String)
  | roll (expr : Expression) (mode : String)
  | rollMany (expr : Expression) (times : ℤ) (mode : String)

/-- What a call gives if it does not fail. -/
inductive Call.Result where
  | expression (expr : Expression)
  | roll (roll : Roll)
  | rolls (rolls : List Roll)
  deriving DecidableEq

abbrev Call.Outcome := Except Failure Call.Result

def Call.perform (source : Source σ) : Call → Rolling σ Call.Result
  | .read text =>
    .expression <$>
      require ((Expression.readOptional text).mapError ReadError.failure)
  | .roll expr mode => .roll <$> expr.roll source mode
  | .rollMany expr times mode => .rolls <$> expr.rollMany source times mode

/-- The outcomes of calls made one after another, and the feed after them. -/
def performAll (source : Source σ) :
    List Call → Feed σ → List Call.Outcome × Feed σ
  | [], feed => ([], feed)
  | call :: calls, feed =>
    let first := outcome (call.perform source) feed
    let later := performAll source calls first.2
    (first.1 :: later.1, later.2)

/-- A call that rolled many times, as that many calls that roll once. -/
def Call.unroll : Call → Call.Outcome → List Call
  | .rollMany expr times mode, .ok _ =>
    List.replicate times.toNat (.roll expr mode)
  | call, _ => [call]

def Call.Outcome.unroll : Call.Outcome → List Call.Outcome
  | .ok (.rolls rolls) => rolls.map fun roll => .ok (.roll roll)
  | outcome => [outcome]

/-- The calls with every successful one that rolls many times unrolled. -/
def unrollAll (source : Source σ) (calls : List Call) (feed : Feed σ) :
    List Call :=
  (List.zipWith Call.unroll calls (performAll source calls feed).1).flatten

variable {source : Source σ}

theorem performAll_append (before later : List Call) (feed : Feed σ) :
    performAll source (before ++ later) feed =
      ((performAll source before feed).1 ++
          (performAll source later (performAll source before feed).2).1,
        (performAll source later (performAll source before feed).2).2) := by
  induction before generalizing feed with
  | nil => rfl
  | cons call before ih =>
      rw [List.cons_append]
      simp only [performAll]
      rw [ih]
      rfl

theorem length_performAll (source : Source σ) (calls : List Call)
    (feed : Feed σ) :
    (performAll source calls feed).1.length = calls.length := by
  induction calls generalizing feed with
  | nil => rfl
  | cons call calls ih => exact congrArg (· + 1) (ih _)

/-! ## One call -/

theorem Expression.exists_ok_throw (hsource : source.AlwaysAnswers)
    (mode : Mode) (expr : Expression) (feed : Feed σ) :
    ∃ roll after, expr.throw source mode feed = .ok roll after :=
  (expr.follows_throw source mode).exists_ok_of_answers
    (fun request _ => hsource request) feed

theorem Expression.exists_ok_repeated_throw (hsource : source.AlwaysAnswers)
    (mode : Mode) (expr : Expression) (n : ℕ) (feed : Feed σ) :
    ∃ rolls after,
      repeated n (expr.throw source mode) feed = .ok rolls after :=
  ((expr.follows_throw source mode).repeated n).exists_ok_of_answers
    (fun request _ => hsource request) feed

/-- A call fails before its first draw or not at all. -/
theorem Call.perform_cases (hsource : source.AlwaysAnswers) (call : Call)
    (feed : Feed σ) :
    (∃ failure, call.perform source feed = .error failure feed) ∨
      ∃ result after, call.perform source feed = .ok result after := by
  cases call with
  | read text =>
      cases hread : Expression.readOptional text with
      | error e =>
          refine .inl ⟨e.failure, ?_⟩
          apply map_of_error
          rw [hread]
          rfl
      | ok expr =>
          refine .inr ⟨.expression expr, feed, ?_⟩
          apply map_of_ok
          rw [hread]
          rfl
  | roll expr name =>
      cases hmode : Mode.ofName? name with
      | none =>
          have hroll := expr.roll_of_ofName?_none source hmode feed
          exact .inl ⟨_, map_of_error hroll _⟩
      | some mode =>
          obtain ⟨roll, after, hroll⟩ := expr.exists_ok_throw hsource mode feed
          rw [← expr.roll_of_ofName?_some source hmode] at hroll
          exact .inr ⟨_, _, map_of_ok hroll _⟩
  | rollMany expr times name =>
      by_cases htimes : times < 1
      · have hrolls := expr.rollMany_of_times_lt source htimes name feed
        exact .inl ⟨_, map_of_error hrolls _⟩
      · have hpos : 1 ≤ times := by omega
        cases hmode : Mode.ofName? name with
        | none =>
            have hrolls :=
              expr.rollMany_of_ofName?_none source hpos hmode feed
            exact .inl ⟨_, map_of_error hrolls _⟩
        | some mode =>
            obtain ⟨rolls, after, hrolls⟩ :=
              expr.exists_ok_repeated_throw hsource mode times.toNat feed
            rw [← expr.rollMany_of_ofName?_some source hpos hmode] at hrolls
            exact .inr ⟨_, _, map_of_ok hrolls _⟩

theorem Call.outcome_of_failed (hsource : source.AlwaysAnswers) {call : Call}
    {feed : Feed σ} {failure : Failure}
    (hfailed : (outcome (call.perform source) feed).1 = .error failure) :
    (outcome (call.perform source) feed).2 = feed := by
  rcases call.perform_cases hsource feed with
    ⟨cause, hcall⟩ | ⟨result, after, hcall⟩
  · rw [outcome_of_error hcall]
  · rw [outcome_of_ok hcall] at hfailed
    cases hfailed

theorem performAll_replicate_roll {expr : Expression} {name : String}
    {mode : Mode} (hmode : Mode.ofName? name = some mode) {n : ℕ}
    {feed after : Feed σ} {rolls : List Roll}
    (hrolls : repeated n (expr.throw source mode) feed = .ok rolls after) :
    performAll source (List.replicate n (.roll expr name)) feed =
      (rolls.map fun roll => .ok (.roll roll), after) := by
  induction n generalizing feed rolls with
  | zero =>
      cases hrolls
      rfl
  | succ n ih =>
      obtain ⟨first, middle, rest, hfirst, hrest, hcons⟩ :=
        repeated_succ_eq_ok_iff.mp hrolls
      rw [← expr.roll_of_ofName?_some source hmode] at hfirst
      have hcall : Call.perform source (.roll expr name) feed =
          .ok (.roll first) middle := map_of_ok hfirst _
      rw [List.replicate_succ, hcons]
      simp only [performAll, outcome_of_ok hcall, ih hrest, List.map_cons]

/-- What a call gives is what the calls give that it unrolls to. -/
theorem performAll_unroll (hsource : source.AlwaysAnswers) (call : Call)
    (feed : Feed σ) :
    performAll source
        (call.unroll (outcome (call.perform source) feed).1) feed =
      (Call.Outcome.unroll (outcome (call.perform source) feed).1,
        (outcome (call.perform source) feed).2) := by
  rcases call.perform_cases hsource feed with
    ⟨failure, hcall⟩ | ⟨result, after, hcall⟩
  · rw [outcome_of_error hcall]
    cases call <;>
      simp only [Call.unroll, Call.Outcome.unroll, performAll,
        outcome_of_error hcall]
  · rw [outcome_of_ok hcall]
    cases call with
    | read text =>
        obtain ⟨expr, -, hresult⟩ := map_eq_ok_iff.mp hcall
        subst result
        simp only [Call.unroll, Call.Outcome.unroll, performAll,
          outcome_of_ok hcall]
    | roll expr name =>
        obtain ⟨roll, -, hresult⟩ := map_eq_ok_iff.mp hcall
        subst result
        simp only [Call.unroll, Call.Outcome.unroll, performAll,
          outcome_of_ok hcall]
    | rollMany expr times name =>
        obtain ⟨rolls, hrolls, hresult⟩ := map_eq_ok_iff.mp hcall
        obtain ⟨-, mode, hmode, hthrows⟩ :=
          Expression.rollMany_eq_ok_iff.mp hrolls
        subst result
        exact performAll_replicate_roll hmode hthrows

/-! ## Sequences of calls -/

theorem performAll_unrollAll (hsource : source.AlwaysAnswers)
    (calls : List Call) (feed : Feed σ) :
    performAll source (unrollAll source calls feed) feed =
      ((performAll source calls feed).1.flatMap Call.Outcome.unroll,
        (performAll source calls feed).2) := by
  induction calls generalizing feed with
  | nil => rfl
  | cons call calls ih =>
      have hsplit : unrollAll source (call :: calls) feed =
          call.unroll (outcome (call.perform source) feed).1 ++
            unrollAll source calls (outcome (call.perform source) feed).2 :=
        rfl
      -- The unrolled calls leave the feed of the call, from which the rest of
      -- the sequence was unrolled.
      rw [hsplit, performAll_append, performAll_unroll hsource]
      dsimp only
      rw [ih]
      rfl

/-- Striking out a call that fails strikes out its outcome, and nothing
else changes. -/
theorem performAll_erase (hsource : source.AlwaysAnswers)
    {before after : List Call} {call : Call} {feed : Feed σ}
    {failure : Failure}
    (hfailed : (performAll source (before ++ call :: after) feed).1[
      before.length]? = some (.error failure)) :
    (performAll source (before ++ [call]) feed).2 =
        (performAll source before feed).2 ∧
      performAll source (before ++ after) feed =
        ((performAll source (before ++ call :: after) feed).1.eraseIdx
            before.length,
          (performAll source (before ++ call :: after) feed).2) := by
  have hlength := length_performAll source before feed
  -- The outcome in question is the first one after the calls before it.
  rw [performAll_append] at hfailed
  simp only [performAll] at hfailed
  rw [← hlength, List.getElem?_append_right (Nat.le_refl _), Nat.sub_self,
    List.getElem?_cons_zero, Option.some.injEq] at hfailed
  have hfeed := Call.outcome_of_failed hsource hfailed
  simp only [performAll_append, performAll, hfeed, true_and]
  rw [← hlength, List.eraseIdx_append_of_length_le (Nat.le_refl _),
    Nat.sub_self, List.eraseIdx_cons_zero]

/-- The first rolls of more repetitions are those of fewer. -/
theorem Expression.rollMany_add_cases (hsource : source.AlwaysAnswers)
    (expr : Expression) (name : String) {n m : ℤ} (hn : 1 ≤ n) (hm : 0 ≤ m)
    (feed : Feed σ) :
    (∃ failure, expr.rollMany source n name feed = .error failure feed ∧
        expr.rollMany source (n + m) name feed = .error failure feed) ∨
      ∃ rolls more middle after, (rolls.length : ℤ) = n ∧
        expr.rollMany source n name feed = .ok rolls middle ∧
        expr.rollMany source (n + m) name feed =
          .ok (rolls ++ more) after := by
  have hsum : 1 ≤ n + m := by omega
  cases hmode : Mode.ofName? name with
  | none =>
      exact .inl ⟨_, expr.rollMany_of_ofName?_none source hn hmode feed,
        expr.rollMany_of_ofName?_none source hsum hmode feed⟩
  | some mode =>
      obtain ⟨rolls, middle, hrolls⟩ :=
        expr.exists_ok_repeated_throw hsource mode n.toNat feed
      obtain ⟨more, after, hmore⟩ :=
        expr.exists_ok_repeated_throw hsource mode m.toNat middle
      have hlength := length_of_repeated_eq_ok hrolls
      have hall := repeated_add_of_ok hrolls hmore
      rw [← Int.toNat_add (by omega) hm] at hall
      refine .inr ⟨rolls, more, middle, after, by omega, ?_, ?_⟩
      · exact rollMany_eq_ok_iff.mpr ⟨hn, mode, hmode, hrolls⟩
      · exact rollMany_eq_ok_iff.mpr ⟨hsum, mode, hmode, hall⟩

/-- Against a source that always answers, a call that fails draws nothing: it
can be struck out of any sequence, and neither another outcome nor the feed at
the end changes.  Unrolling the successful calls that roll many times gives the
same rolls in the same order and the same feed, and the rolls of a call that
asks for fewer are the first of a call that asks for more. -/
theorem failures_erase_and_repetitions_unroll (source : Source σ)
    (hsource : source.AlwaysAnswers) :
    (∀ (before after : List Call) (call : Call) (feed : Feed σ)
      (failure : Failure),
      (performAll source (before ++ call :: after) feed).1[
          before.length]? = some (.error failure) →
        (performAll source (before ++ [call]) feed).2 =
            (performAll source before feed).2 ∧
          performAll source (before ++ after) feed =
            ((performAll source (before ++ call :: after) feed).1.eraseIdx
                before.length,
              (performAll source (before ++ call :: after) feed).2)) ∧
    (∀ (calls : List Call) (feed : Feed σ),
      performAll source (unrollAll source calls feed) feed =
        ((performAll source calls feed).1.flatMap Call.Outcome.unroll,
          (performAll source calls feed).2)) ∧
    ∀ (expr : Expression) (mode : String) (n m : ℤ) (feed : Feed σ),
      1 ≤ n → 0 ≤ m →
        (∃ failure, expr.rollMany source n mode feed = .error failure feed ∧
          expr.rollMany source (n + m) mode feed = .error failure feed) ∨
        ∃ rolls more middle after, (rolls.length : ℤ) = n ∧
          expr.rollMany source n mode feed = .ok rolls middle ∧
          expr.rollMany source (n + m) mode feed =
            .ok (rolls ++ more) after := by
  refine ⟨?_, performAll_unrollAll hsource, ?_⟩
  · intro before after call feed failure hfailed
    exact performAll_erase hsource hfailed
  · intro expr mode n m feed hn hm
    exact expr.rollMany_add_cases hsource mode hn hm feed

theorem failures_erase_and_repetitions_unroll_linear :
    let d20 : Expression := ⟨[⟨1, 20, 1⟩], []⟩
    let pair : Expression := ⟨[⟨2, 6, -1⟩], [⟨4, 1⟩]⟩
    let source := Source.linear 3 5
    source.AlwaysAnswers ∧
      (performAll source
          [.roll d20 "advantage", .roll d20 "wild", .rollMany pair 2 "none"]
          (.initial 0)).1[1]? = some (.error (.rejected (.mode "wild"))) ∧
      (performAll source
          [.roll d20 "advantage", .rollMany pair 2 "none"] (.initial 0)).2 =
        (performAll source
          [.roll d20 "advantage", .roll d20 "wild", .rollMany pair 2 "none"]
          (.initial 0)).2 ∧
      performAll source [.roll pair "none", .roll pair "none"] (.initial 0) =
        ([.ok (.roll ⟨[⟨⟨2, 6, -1⟩, [4, 3], -7⟩], 4, -3⟩),
            .ok (.roll ⟨[⟨⟨2, 6, -1⟩, [2, 1], -3⟩], 4, 1⟩)],
          (performAll source [.rollMany pair 2 "none"] (.initial 0)).2) ∧
      ∃ rolls more middle after, (rolls.length : ℤ) = 1 ∧
        pair.rollMany source 1 "none" (.initial 0) = .ok rolls middle ∧
        pair.rollMany source (1 + 2) "none" (.initial 0) =
          .ok (rolls ++ more) after := by
  have hsource := Source.linear_alwaysAnswers 3 5
  obtain ⟨herase, hunroll, hfirst⟩ :=
    failures_erase_and_repetitions_unroll (Source.linear 3 5) hsource
  intro d20 pair source
  have hwild : (performAll source
      [.roll d20 "advantage", .roll d20 "wild", .rollMany pair 2 "none"]
      (.initial 0)).1[1]? = some (.error (.rejected (.mode "wild"))) := by rfl
  have herased := herase [.roll d20 "advantage"] [.rollMany pair 2 "none"]
    (.roll d20 "wild") (.initial 0) (.rejected (.mode "wild")) hwild
  have hstruck := congrArg Prod.snd herased.2
  refine ⟨hsource, hwild, hstruck, ?_, ?_⟩
  · exact hunroll [.rollMany pair 2 "none"] (.initial 0)
  · rcases hfirst pair "none" 1 2 (.initial 0) (by decide) (by decide) with
      ⟨failure, hfailed, -⟩ | hrolls
    · cases hfailed
    · exact hrolls

end TabletopDice
