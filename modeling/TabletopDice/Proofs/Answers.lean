import TabletopDice.Proofs.Plan

/-!
# Sources that answer

What can be asked of a source: that it answers a request, that it always
does, that its answers lie within the bounds.  Against a source that answers
every request of its plan, a rolling succeeds, and its result is made of
answers within the bounds if the source keeps to them.
-/

namespace TabletopDice

variable {σ α : Type}

/-! ## Promises of a source -/

/-- A request that can be answered within its bounds. -/
def Request.Satisfiable (request : Request) : Prop :=
  request.low ≤ request.high

def Request.Admits (request : Request) (answer : ℤ) : Prop :=
  request.low ≤ answer ∧ answer ≤ request.high

namespace Source

def Answers (source : Source σ) (request : Request) : Prop :=
  ∀ state, ∃ answer next, source.draw request state = (.ok answer, next)

def AlwaysAnswers (source : Source σ) : Prop :=
  ∀ request, source.Answers request

/-- Every answer to a request that can be satisfied satisfies it. -/
def KeepsBounds (source : Source σ) : Prop :=
  ∀ request state answer next, request.Satisfiable →
    source.draw request state = (.ok answer, next) → request.Admits answer

/-- Every request that can be satisfied is answered, and within its bounds. -/
structure AnswersWithinBounds (source : Source σ) : Prop where
  answers : ∀ request, request.Satisfiable → source.Answers request
  keepsBounds : source.KeepsBounds

theorem linear_alwaysAnswers (start step : ℤ) :
    (linear start step).AlwaysAnswers :=
  fun _ _ => ⟨_, _, rfl⟩

theorem linear_answersWithinBounds (start step : ℤ) :
    (linear start step).AnswersWithinBounds where
  answers request _ := linear_alwaysAnswers start step request
  keepsBounds := by
    intro request k answer next hrequest hdraw
    unfold Request.Satisfiable at hrequest
    have hwidth : 0 < request.high - request.low + 1 := by omega
    have hanswer : answer = request.low +
        (start + k * step).emod (request.high - request.low + 1) := by
      have hfst := congrArg Prod.fst hdraw
      simp only [linear, if_neg (not_lt.mpr hrequest), Except.ok.injEq] at hfst
      exact hfst.symm
    have hnonneg := Int.emod_nonneg (start + k * step) hwidth.ne'
    have hlt := Int.emod_lt_of_pos (start + k * step) hwidth
    rw [hanswer]
    constructor
    · exact Int.le_add_of_nonneg_right hnonneg
    · change _ + (start + k * step) % _ ≤ _
      omega

/-! ## Asking for a list of requests -/

variable {source : Source σ} {plan : List Request}

theorem refusal_ask_of_answers
    (hplan : ∀ request ∈ plan, source.Answers request) (state : σ) :
    (source.ask plan state).refusal = none := by
  induction plan generalizing state with
  | nil => rfl
  | cons request plan ih =>
      obtain ⟨answer, next, hdraw⟩ := hplan request List.mem_cons_self state
      have hlater : ∀ later ∈ plan, source.Answers later :=
        fun later hmem => hplan later (List.mem_cons_of_mem request hmem)
      rw [source.ask_cons_of_ok hdraw]
      exact ih hlater next

theorem KeepsBounds.admits_ask (hsource : source.KeepsBounds)
    (hplan : ∀ request ∈ plan, request.Satisfiable) {state : σ}
    (hgranted : (source.ask plan state).refusal = none) :
    List.Forall₂ Request.Admits plan (source.ask plan state).answers := by
  induction plan generalizing state with
  | nil => exact List.Forall₂.nil
  | cons request plan ih =>
      have hlater : ∀ later ∈ plan, later.Satisfiable :=
        fun later hmem => hplan later (List.mem_cons_of_mem request hmem)
      rcases source.draw_cases request state with
        ⟨failure, next, hdraw⟩ | ⟨answer, next, hdraw⟩
      · rw [source.ask_cons_of_error hdraw] at hgranted
        cases hgranted
      · rw [source.ask_cons_of_ok hdraw] at hgranted ⊢
        have hanswer : request.Admits answer :=
          hsource request state answer next
            (hplan request List.mem_cons_self) hdraw
        exact List.Forall₂.cons hanswer (ih hlater hgranted)

end Source

/-! ## Rollings that succeed -/

namespace Follows

variable {source : Source σ} {action : Rolling σ α} {plan : List Request}
  {result : List ℤ → α} {resolved : List ℤ → List Resolution}

theorem eq_ok_of_granted
    (haction : Follows source action plan result resolved) {feed : Feed σ}
    (hgranted : (source.ask plan feed.state).refusal = none) :
    action feed =
      .ok (result (source.ask plan feed.state).answers)
        (feed.after plan (source.ask plan feed.state)
          (resolved (source.ask plan feed.state).answers)) := by
  rw [haction.run feed]
  dsimp only
  rw [hgranted]

theorem exists_ok_of_answers
    (haction : Follows source action plan result resolved)
    (hplan : ∀ request ∈ plan, source.Answers request) (feed : Feed σ) :
    ∃ value after, action feed = .ok value after := by
  have hgranted := Source.refusal_ask_of_answers hplan feed.state
  exact ⟨_, _, haction.eq_ok_of_granted hgranted⟩

/-- A rolling succeeds only if all its requests are granted, and its result is
then made of the answers. -/
theorem granted_of_eq_ok
    (haction : Follows source action plan result resolved)
    {feed after : Feed σ} {value : α} (hvalue : action feed = .ok value after) :
    (source.ask plan feed.state).refusal = none ∧
      value = result (source.ask plan feed.state).answers := by
  cases hrefusal : (source.ask plan feed.state).refusal with
  | none =>
      rw [haction.eq_ok_of_granted hrefusal] at hvalue
      cases hvalue
      exact ⟨rfl, rfl⟩
  | some failure =>
      rw [haction.run feed] at hvalue
      dsimp only at hvalue
      rw [hrefusal] at hvalue
      cases hvalue

/-- A rolling that succeeds has made all requests of its plan. -/
theorem requests_of_eq_ok
    (haction : Follows source action plan result resolved)
    {feed after : Feed σ} {value : α} (hvalue : action feed = .ok value after) :
    after.requests = feed.requests ++ plan.toArray := by
  obtain ⟨hgranted, -⟩ := haction.granted_of_eq_ok hvalue
  have hlength := source.length_answers_of_granted hgranted
  have hall : plan.take (plan.length + 1) = plan :=
    List.take_of_length_le (Nat.le_succ _)
  rw [haction.eq_ok_of_granted hgranted] at hvalue
  cases hvalue
  simp only [Feed.after, hlength, hall]

end Follows

end TabletopDice
