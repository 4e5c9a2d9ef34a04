import TabletopDice.Draw.Feed
import Mathlib.Data.List.SplitLengths
import Mathlib.Tactic

/-!
# Rolling by a plan

Most rollings fix their requests in advance: no answer changes what is asked
next, and only a refusal cuts the requests short.  Such a rolling follows a
plan, the list of its requests, and is then determined by what the source
answers to that list.  Plans are put one after another as the rollings are.
-/

namespace TabletopDice

variable {σ α β : Type}

/-! ## Asking for a list of requests -/

/-- What a source answers to requests made one after another, up to the first
that it refuses. -/
structure Reply (σ : Type) where
  answers : List ℤ
  refusal : Option DrawFailure
  state : σ

def Source.ask (source : Source σ) : List Request → σ → Reply σ
  | [], state => ⟨[], none, state⟩
  | request :: rest, state =>
    match source.draw request state with
    | (.error failure, state) => ⟨[], some failure, state⟩
    | (.ok value, state) =>
      let reply := source.ask rest state
      ⟨value :: reply.answers, reply.refusal, reply.state⟩

namespace Source

variable (source : Source σ)

@[simp] theorem ask_nil (state : σ) : source.ask [] state = ⟨[], none, state⟩ := rfl

theorem ask_cons_of_error {request : Request} {state next : σ}
    {failure : DrawFailure}
    (hdraw : source.draw request state = (.error failure, next))
    (rest : List Request) :
    source.ask (request :: rest) state = ⟨[], some failure, next⟩ := by
  simp only [ask, hdraw]

theorem ask_cons_of_ok {request : Request} {state next : σ} {value : ℤ}
    (hdraw : source.draw request state = (.ok value, next))
    (rest : List Request) :
    source.ask (request :: rest) state =
      ⟨value :: (source.ask rest next).answers,
        (source.ask rest next).refusal, (source.ask rest next).state⟩ := by
  simp only [ask, hdraw]

theorem draw_cases (request : Request) (state : σ) :
    (∃ failure next, source.draw request state = (.error failure, next)) ∨
      ∃ value next, source.draw request state = (.ok value, next) := by
  rcases source.draw request state with ⟨failure | value, next⟩
  · exact .inl ⟨failure, next, rfl⟩
  · exact .inr ⟨value, next, rfl⟩

theorem ask_append_of_refused {plan : List Request} {state : σ}
    {failure : DrawFailure}
    (hrefused : (source.ask plan state).refusal = some failure)
    (later : List Request) :
    source.ask (plan ++ later) state = source.ask plan state := by
  induction plan generalizing state with
  | nil => cases hrefused
  | cons request plan ih =>
      rw [List.cons_append]
      rcases source.draw_cases request state with
        ⟨failure, next, hdraw⟩ | ⟨value, next, hdraw⟩
      · rw [source.ask_cons_of_error hdraw, source.ask_cons_of_error hdraw]
      · rw [source.ask_cons_of_ok hdraw] at hrefused
        rw [source.ask_cons_of_ok hdraw, source.ask_cons_of_ok hdraw,
          ih hrefused]

theorem ask_append_of_granted {plan : List Request} {state : σ}
    (hgranted : (source.ask plan state).refusal = none)
    (later : List Request) :
    source.ask (plan ++ later) state =
      let reply := source.ask later (source.ask plan state).state
      ⟨(source.ask plan state).answers ++ reply.answers, reply.refusal,
        reply.state⟩ := by
  induction plan generalizing state with
  | nil => rfl
  | cons request plan ih =>
      rw [List.cons_append]
      rcases source.draw_cases request state with
        ⟨failure, next, hdraw⟩ | ⟨value, next, hdraw⟩
      · rw [source.ask_cons_of_error hdraw] at hgranted
        cases hgranted
      · rw [source.ask_cons_of_ok hdraw] at hgranted
        rw [source.ask_cons_of_ok hdraw, source.ask_cons_of_ok hdraw,
          ih hgranted]
        rfl

theorem length_answers_of_granted {plan : List Request} {state : σ}
    (hgranted : (source.ask plan state).refusal = none) :
    (source.ask plan state).answers.length = plan.length := by
  induction plan generalizing state with
  | nil => rfl
  | cons request plan ih =>
      rcases source.draw_cases request state with
        ⟨failure, next, hdraw⟩ | ⟨value, next, hdraw⟩
      · rw [source.ask_cons_of_error hdraw] at hgranted
        cases hgranted
      · rw [source.ask_cons_of_ok hdraw] at hgranted ⊢
        exact congrArg (· + 1) (ih hgranted)

theorem length_answers_of_refused {plan : List Request} {state : σ}
    {failure : DrawFailure}
    (hrefused : (source.ask plan state).refusal = some failure) :
    (source.ask plan state).answers.length < plan.length := by
  induction plan generalizing state with
  | nil => cases hrefused
  | cons request plan ih =>
      rcases source.draw_cases request state with
        ⟨failure, next, hdraw⟩ | ⟨value, next, hdraw⟩
      · rw [source.ask_cons_of_error hdraw]
        exact Nat.succ_pos plan.length
      · rw [source.ask_cons_of_ok hdraw] at hrefused ⊢
        exact Nat.succ_lt_succ (ih hrefused)

theorem ask_script (plan : List Request) (values : List ℤ) :
    script.ask plan values =
      ⟨values.take plan.length,
        if plan.length ≤ values.length then none else some .exhausted,
        values.drop plan.length⟩ := by
  induction plan generalizing values with
  | nil => simp
  | cons request plan ih =>
      cases values with
      | nil => simp [ask, script]
      | cons value values =>
          have hdraw : script.draw request (value :: values) =
              (.ok value, values) := rfl
          rw [ask, hdraw]
          dsimp only
          rw [ih values]
          simp

end Source

/-! ## Steps that ask for nothing -/

namespace Rolling

theorem resolve_apply (resolution : Resolution) (feed : Feed σ) :
    resolve resolution feed =
      .ok () { feed with resolutions := feed.resolutions.push resolution } := rfl

theorem require_ok_bind (value : α) (next : α → Rolling σ β) :
    (require (.ok value) >>= next) = next value := rfl

theorem require_error_bind (failure : Failure) (next : α → Rolling σ β)
    (feed : Feed σ) :
    (require (.error failure) >>= next) feed = .error failure feed := rfl

/-! ## Steps one after another -/

variable {action : Rolling σ α} {feed after : Feed σ}

theorem map_of_ok {value : α} (haction : action feed = .ok value after)
    (f : α → β) : (f <$> action) feed = .ok (f value) after := by
  simp only [Functor.map, EStateM.map, haction]

theorem map_of_error {failure : Failure}
    (haction : action feed = .error failure after) (f : α → β) :
    (f <$> action) feed = .error failure after := by
  simp only [Functor.map, EStateM.map, haction]

theorem map_eq_ok_iff {f : α → β} {value : β} :
    (f <$> action) feed = .ok value after ↔
      ∃ first, action feed = .ok first after ∧ f first = value := by
  cases haction : action feed with
  | ok first middle =>
      rw [map_of_ok haction]
      simp [and_comm]
  | error failure middle =>
      rw [map_of_error haction]
      simp

theorem bind_of_ok {value : α} (haction : action feed = .ok value after)
    (next : α → Rolling σ β) : (action >>= next) feed = next value after := by
  simp only [bind, EStateM.bind, haction]

theorem bind_of_error {failure : Failure}
    (haction : action feed = .error failure after) (next : α → Rolling σ β) :
    (action >>= next) feed = .error failure after := by
  simp only [bind, EStateM.bind, haction]

theorem bind_eq_ok_iff {next : α → Rolling σ β} {value : β} :
    (action >>= next) feed = .ok value after ↔
      ∃ first middle, action feed = .ok first middle ∧
        next first middle = .ok value after := by
  cases haction : action feed with
  | ok first middle => simp [bind, EStateM.bind, haction]
  | error failure middle => simp [bind, EStateM.bind, haction]

theorem require_eq_ok_iff {checked : Except Failure α} {value : α} :
    require checked feed = .ok value after ↔
      checked = .ok value ∧ after = feed := by
  cases checked with
  | ok found => simp [require, pure, EStateM.pure, eq_comm]
  | error failure =>
      have hthrown : (require (.error failure) : Rolling σ α) feed =
          .error failure feed := rfl
      simp [hthrown]

/-! ## Repeated steps -/

theorem repeated_succ_eq_ok_iff {n : ℕ} {values : List α} :
    repeated (n + 1) action feed = .ok values after ↔
      ∃ first middle rest, action feed = .ok first middle ∧
        repeated n action middle = .ok rest after ∧
        values = first :: rest := by
  rw [repeated_succ, bind_eq_ok_iff]
  constructor
  · intro hvalues
    obtain ⟨first, middle, hfirst, hlater⟩ := hvalues
    obtain ⟨rest, last, hrest, hpure⟩ := bind_eq_ok_iff.mp hlater
    cases hpure
    exact ⟨first, middle, rest, hfirst, hrest, rfl⟩
  · intro hvalues
    obtain ⟨first, middle, rest, hfirst, hrest, hcons⟩ := hvalues
    subst values
    exact ⟨first, middle, hfirst, bind_eq_ok_iff.mpr ⟨rest, after, hrest, rfl⟩⟩

theorem length_of_repeated_eq_ok {n : ℕ} {values : List α}
    (hvalues : repeated n action feed = .ok values after) :
    values.length = n := by
  induction n generalizing feed values with
  | zero =>
      cases hvalues
      rfl
  | succ n ih =>
      obtain ⟨first, middle, rest, -, hrest, hcons⟩ :=
        repeated_succ_eq_ok_iff.mp hvalues
      rw [hcons, List.length_cons, ih hrest]

theorem repeated_add (n m : ℕ) (action : Rolling σ α) :
    repeated (n + m) action = do
      let first ← repeated n action
      let second ← repeated m action
      return first ++ second := by
  induction n with
  | zero => simp
  | succ n ih =>
      rw [Nat.add_right_comm, repeated_succ, ih, repeated_succ]
      simp only [bind_assoc, pure_bind, List.cons_append]

theorem repeated_add_of_ok {n m : ℕ} {values more : List α}
    {middle : Feed σ} (hvalues : repeated n action feed = .ok values middle)
    (hmore : repeated m action middle = .ok more after) :
    repeated (n + m) action feed = .ok (values ++ more) after := by
  rw [repeated_add, bind_of_ok hvalues, bind_of_ok hmore]
  rfl

theorem exists_ok_of_mem_repeated {n : ℕ} {values : List α}
    (hvalues : repeated n action feed = .ok values after) {value : α}
    (hmem : value ∈ values) :
    ∃ before next, action before = .ok value next := by
  induction n generalizing feed values with
  | zero =>
      cases hvalues
      cases hmem
  | succ n ih =>
      obtain ⟨first, middle, rest, hfirst, hrest, hcons⟩ :=
        repeated_succ_eq_ok_iff.mp hvalues
      subst values
      rcases List.mem_cons.mp hmem with heq | hlater
      · subst value
        exact ⟨feed, middle, hfirst⟩
      · exact ih hrest hlater

end Rolling

/-! ## Following a plan -/

/-- The answers to plans that are put one after another, those to each plan in
a block of their own. -/
def blocks (plans : List (List Request)) (answers : List ℤ) :
    List (List ℤ) :=
  (plans.map List.length).splitLengths answers

@[simp] theorem blocks_nil (answers : List ℤ) : blocks [] answers = [] := rfl

@[simp] theorem blocks_cons (plan : List Request) (plans : List (List Request))
    (answers : List ℤ) :
    blocks (plan :: plans) answers =
      answers.take plan.length :: blocks plans (answers.drop plan.length) := by
  simp [blocks]

@[simp] theorem length_blocks (plans : List (List Request))
    (answers : List ℤ) : (blocks plans answers).length = plans.length := by
  simp [blocks]

theorem map_headD_blocks_replicate (request : Request) {n : ℕ}
    {answers : List ℤ} (hlength : answers.length = n) :
    (blocks (List.replicate n [request]) answers).map
      (fun block => block.headD 0) = answers := by
  induction n generalizing answers with
  | zero => simp [List.eq_nil_of_length_eq_zero hlength]
  | succ n ih =>
      cases answers with
      | nil => cases hlength
      | cons answer answers =>
          have hlater : answers.length = n := by simpa using hlength
          have hrest := ih hlater
          simpa [List.replicate_succ] using hrest

theorem forall₂_blocks {r : Request → ℤ → Prop} {plans : List (List Request)}
    {answers : List ℤ} (hanswers : List.Forall₂ r plans.flatten answers) :
    List.Forall₂ (List.Forall₂ r) plans (blocks plans answers) := by
  induction plans generalizing answers with
  | nil => exact List.Forall₂.nil
  | cons plan plans ih =>
      rw [List.flatten_cons] at hanswers
      have hfirst := List.forall₂_take_append _ _ _ hanswers.flip
      have hlater := List.forall₂_drop_append _ _ _ hanswers.flip
      rw [blocks_cons]
      exact List.Forall₂.cons hfirst.flip (ih hlater.flip)

theorem blocks_take (plans : List (List Request)) (answers : List ℤ) :
    blocks plans (answers.take plans.flatten.length) =
      blocks plans answers := by
  induction plans generalizing answers with
  | nil => rfl
  | cons plan plans ih =>
      have hfirst : (answers.take (plan.length + plans.flatten.length)).take
          plan.length = answers.take plan.length := by
        rw [List.take_take, Nat.min_eq_left (Nat.le_add_right _ _)]
      have hrest : (answers.take (plan.length + plans.flatten.length)).drop
          plan.length = (answers.drop plan.length).take plans.flatten.length := by
        rw [List.drop_take, Nat.add_sub_cancel_left]
      rw [List.flatten_cons, List.length_append, blocks_cons, blocks_cons,
        hfirst, hrest, ih]

/-- The feed after as many requests of a plan as the reply covers. -/
def Feed.after (feed : Feed σ) (plan : List Request) (reply : Reply σ)
    (resolved : List Resolution) : Feed σ where
  state := reply.state
  requests := feed.requests ++ (plan.take (reply.answers.length + 1)).toArray
  resolutions := feed.resolutions ++ resolved.toArray

/-- The rolling makes the requests of the plan in order and stops at the first
that is refused.  Its result and the resolutions that it records are given by
the answers, and nothing is resolved before the first answer. -/
structure Follows (source : Source σ) (action : Rolling σ α)
    (plan : List Request) (result : List ℤ → α)
    (resolved : List ℤ → List Resolution) : Prop where
  resolved_nil : resolved [] = []
  run (feed : Feed σ) :
    action feed =
      let reply := source.ask plan feed.state
      let feed := feed.after plan reply (resolved reply.answers)
      match reply.refusal with
      | none => .ok (result reply.answers) feed
      | some failure => .error (.draw failure) feed

namespace Follows

variable {source : Source σ} {action : Rolling σ α} {next : Rolling σ β}
  {plan later : List Request} {result : List ℤ → α} {onward : List ℤ → β}
  {resolved settled : List ℤ → List Resolution}

theorem of_pure (value : α) :
    Follows source (pure value) [] (fun _ => value) (fun _ => []) where
  resolved_nil := rfl
  run feed := by simp [Feed.after, pure, EStateM.pure]

theorem of_draw (low high : ℤ) :
    Follows source (Rolling.draw source low high) [⟨low, high⟩]
      (fun answers => answers.headD 0) (fun _ => []) where
  resolved_nil := rfl
  run feed := by
    rcases source.draw_cases ⟨low, high⟩ feed.state with
      ⟨failure, next, hdraw⟩ | ⟨value, next, hdraw⟩
    · simp [Rolling.draw, hdraw, source.ask_cons_of_error hdraw, Feed.after]
    · simp [Rolling.draw, hdraw, source.ask_cons_of_ok hdraw, Feed.after]

/-- The result counts for full answers only, and the resolutions for no more
answers than there are requests. -/
theorem congr (haction : Follows source action plan result resolved)
    {other : List ℤ → α} {otherResolved : List ℤ → List Resolution}
    (hresult : ∀ answers : List ℤ, answers.length = plan.length →
      result answers = other answers)
    (hresolved : ∀ answers : List ℤ, answers.length ≤ plan.length →
      resolved answers = otherResolved answers) :
    Follows source action plan other otherResolved where
  resolved_nil := by
    rw [← hresolved [] (Nat.zero_le _), haction.resolved_nil]
  run feed := by
    rw [haction.run feed]
    dsimp only
    cases hrefusal : (source.ask plan feed.state).refusal with
    | some failure =>
        have hlength := source.length_answers_of_refused hrefusal
        rw [hresolved _ hlength.le]
    | none =>
        have hlength := source.length_answers_of_granted hrefusal
        rw [hresult _ hlength, hresolved _ hlength.le]

theorem map (haction : Follows source action plan result resolved)
    (f : α → β) :
    Follows source (f <$> action) plan (fun answers => f (result answers))
      resolved where
  resolved_nil := haction.resolved_nil
  run feed := by
    have hmap : (f <$> action) feed =
        match action feed with
        | .ok value feed => .ok (f value) feed
        | .error failure feed => .error failure feed := by
      cases haction : action feed <;>
        simp only [Functor.map, EStateM.map, haction]
    rw [hmap, haction.run feed]
    dsimp only
    cases (source.ask plan feed.state).refusal <;> rfl

/-- One rolling after another follows the one plan after the other, and the
answers are divided between them. -/
theorem andThen (haction : Follows source action plan result resolved)
    (hnext : Follows source next later onward settled) {γ : Type}
    (combine : α → β → γ) :
    Follows source
      (do let value ← action
          let rest ← next
          return combine value rest)
      (plan ++ later)
      (fun answers => combine (result (answers.take plan.length))
        (onward (answers.drop plan.length)))
      (fun answers => resolved (answers.take plan.length) ++
        settled (answers.drop plan.length)) where
  resolved_nil := by simp [haction.resolved_nil, hnext.resolved_nil]
  run feed := by
    have hbind : (do let value ← action
                     let rest ← next
                     return combine value rest : Rolling σ γ) feed =
        match action feed with
        | .error failure feed => .error failure feed
        | .ok value feed =>
          match next feed with
          | .error failure feed => .error failure feed
          | .ok rest feed => .ok (combine value rest) feed := by
      cases haction : action feed with
      | error failure feed =>
          simp only [bind, EStateM.bind, haction]
      | ok value feed =>
          cases hnext : next feed with
          | error failure feed =>
              simp only [bind, EStateM.bind, haction, hnext]
          | ok rest feed =>
              simp only [bind, EStateM.bind, haction, hnext]
              rfl
    rw [hbind, haction.run feed]
    dsimp only
    cases hrefusal : (source.ask plan feed.state).refusal with
    | some failure =>
        -- the later plan is never reached, and nothing of it is resolved
        have hshort := source.length_answers_of_refused hrefusal
        have htake := List.take_of_length_le hshort.le
        have hdrop := List.drop_of_length_le hshort.le
        rw [source.ask_append_of_refused hrefusal]
        simp only [hrefusal, htake, hdrop, hnext.resolved_nil,
          List.append_nil, Feed.after]
        rw [List.take_append_of_le_length hshort]
    | none =>
        -- the answers break exactly where the later plan begins
        have hfull := source.length_answers_of_granted hrefusal
        have hall : plan.take (plan.length + 1) = plan :=
          List.take_of_length_le (by omega)
        have hrequests (n : ℕ) : (plan ++ later).take (plan.length + n) =
            plan ++ later.take n := List.take_length_add_append n
        rw [source.ask_append_of_granted hrefusal]
        dsimp only
        rw [hnext.run]
        cases hlater :
            (source.ask later (source.ask plan feed.state).state).refusal <;>
          simp [Feed.after, hlater, hfull, hall, hrequests, Nat.add_assoc,
            List.take_left' hfull, List.drop_left' hfull]

theorem exists_draw_of_error
    (haction : Follows source action plan result resolved)
    {feed after : Feed σ} {failure : Failure}
    (hfailed : action feed = .error failure after) :
    ∃ refusal, failure = .draw refusal := by
  rw [haction.run feed] at hfailed
  dsimp only at hfailed
  cases hrefusal : (source.ask plan feed.state).refusal with
  | none =>
      rw [hrefusal] at hfailed
      cases hfailed
  | some refusal =>
      rw [hrefusal] at hfailed
      cases hfailed
      exact ⟨refusal, rfl⟩

theorem mapM {ι : Type} {action : ι → Rolling σ α}
    {plan : ι → List Request} {result : ι → List ℤ → α}
    {resolved : ι → List ℤ → List Resolution}
    (haction : ∀ i, Follows source (action i) (plan i) (result i) (resolved i))
    (xs : List ι) :
    Follows source (xs.mapM action) (xs.flatMap plan)
      (fun answers => List.zipWith result xs (blocks (xs.map plan) answers))
      (fun answers =>
        (List.zipWith resolved xs (blocks (xs.map plan) answers)).flatten) := by
  induction xs with
  | nil => exact of_pure []
  | cons x xs ih =>
      simp only [List.mapM_cons, List.flatMap_cons, List.map_cons,
        blocks_cons, List.zipWith_cons_cons, List.flatten_cons]
      exact (haction x).andThen ih List.cons

theorem repeated (haction : Follows source action plan result resolved)
    (n : ℕ) :
    Follows source (Rolling.repeated n action) (List.replicate n plan).flatten
      (fun answers => (blocks (List.replicate n plan) answers).map result)
      (fun answers =>
        (blocks (List.replicate n plan) answers).flatMap resolved) := by
  induction n with
  | zero => exact of_pure []
  | succ n ih =>
      simp only [Rolling.repeated_succ, List.replicate_succ,
        List.flatten_cons, blocks_cons, List.map_cons, List.flatMap_cons]
      exact haction.andThen ih List.cons

theorem of_draws (low high : ℤ) (n : ℕ) :
    Follows source (Rolling.repeated n (Rolling.draw source low high))
      (List.replicate n ⟨low, high⟩) (fun answers => answers)
      (fun _ => []) := by
  have hplan : (List.replicate n [(⟨low, high⟩ : Request)]).flatten =
      List.replicate n ⟨low, high⟩ := by
    simp
  have hdraw : Follows source (Rolling.draw source low high) [⟨low, high⟩]
      (fun answers => answers.headD 0) (fun _ => []) := of_draw low high
  have hdraws := hdraw.repeated n
  rw [hplan] at hdraws
  apply hdraws.congr
  · intro answers hlength
    exact map_headD_blocks_replicate ⟨low, high⟩ (by simpa using hlength)
  · intro answers _
    simp

end Follows

end TabletopDice
