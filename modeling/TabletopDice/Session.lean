import TabletopDice.Expression.Canonical
import TabletopDice.Roll.Throw
import TabletopDice.Roll.Written
import TabletopDice.Summary

/-!
# Sessions

An evening at the table: expressions are written down under names, rolled again
and again against one source, and the totals are kept until they are cleared.  A
step that fails, or whose rolls cannot be written, leaves everything but the
feed as it was.
-/

namespace TabletopDice

structure Session (σ : Type) where
  feed : Feed σ
  /-- named expressions, the latest first -/
  slots : List (String × Expression) := []
  totals : Array Int := #[]
  last : Option Roll := none

namespace Session

open Rolling

inductive Step where
  | write (slot text : String)
  | roll (slot mode : String)
  | rollMany (slot : String) (times : Int) (mode : String)
  | summarize
  | present (index : Int) (quiet : Bool)
  | clear
  deriving DecidableEq, Repr

inductive Answer where
  | written (expr : Expression)
  | rolled (roll : Roll)
  | rolledMany (totals : List Int)
  | summarized (summary : Option Summary)
  | presented (lines : List String)
  | cleared
  | failed (failure : Failure)
  | noSuchSlot (slot : String)
  | nothingRolled
  deriving DecidableEq

namespace Answer

/-- The step asked for something that could not be done. -/
def IsFailure : Answer → Prop
  | .failed _ | .noSuchSlot _ | .nothingRolled => True
  | _ => False

/-- The totals that an answer gives, in the order of the rolls. -/
def totals : Answer → List Int
  | .rolled roll => [roll.total]
  | .rolledMany totals => totals
  | _ => []

end Answer

variable {σ : Type}

def slot? (session : Session σ) (name : String) : Option Expression :=
  (session.slots.find? fun slot => slot.1 = name).map Prod.snd

/-- The result of a rolling becomes an answer and a change to the session; a
failure changes the feed. -/
def advance {α : Type} (session : Session σ) (rolling : Rolling σ α)
    (onSuccess : α → Session σ → Answer × Session σ) : Answer × Session σ :=
  match rolling session.feed with
  | .ok result feed => onSuccess result { session with feed }
  | .error failure feed => (.failed failure, { session with feed })

def step (source : Source σ) (session : Session σ) : Step → Answer × Session σ
  | .write name text =>
    match Expression.read text with
    | .ok expr =>
      (.written expr, { session with slots := (name, expr) :: session.slots })
    | .error e => (.failed e.failure, session)
  | .roll name mode =>
    match session.slot? name with
    | none => (.noSuchSlot name, session)
    | some expr =>
      session.advance (do require (← expr.roll source mode).checked)
        fun roll session =>
          (.rolled roll,
            { session with
              totals := session.totals.push roll.total
              last := some roll })
  | .rollMany name times mode =>
    match session.slot? name with
    | none => (.noSuchSlot name, session)
    | some expr =>
      session.advance (expr.rollMany source times mode) fun rolls session =>
        let totals := rolls.map Roll.total
        (.rolledMany totals,
          { session with
            totals := session.totals.appendList totals
            last := rolls.getLast? })
  | .summarize =>
    match Summary.checkedOfTotals session.totals.toList with
    | .ok summary => (.summarized summary, session)
    | .error failure => (.failed failure, session)
  | .present index quiet =>
    match session.last with
    | none => (.nothingRolled, session)
    | some roll =>
      match roll.present index quiet with
      | .ok lines => (.presented lines, session)
      | .error failure => (.failed failure, session)
  | .clear => (.cleared, { session with totals := #[] })

/-- The answers to steps taken in turn, and the session after them. -/
def run (source : Source σ) (session : Session σ) :
    List Step → List Answer × Session σ
  | [] => ([], session)
  | step :: steps =>
    let (answer, next) := session.step source step
    let (answers, last) := next.run source steps
    (answer :: answers, last)

/-! ## What a step does to the session -/

section Steps

variable {session : Session σ} {source : Source σ} {step : Step}
  {steps : List Step}

theorem advance_of_isFailure {α : Type} {rolling : Rolling σ α}
    {onSuccess : α → Session σ → Answer × Session σ}
    (hsuccess : ∀ result session, ¬ (onSuccess result session).1.IsFailure)
    (hfailure : (session.advance rolling onSuccess).1.IsFailure) :
    (session.advance rolling onSuccess).2 =
      { session with feed := (session.advance rolling onSuccess).2.feed } := by
  unfold advance at hfailure ⊢
  split at hfailure
  · exact absurd hfailure (hsuccess _ _)
  · rfl

theorem totals_advance {α : Type} {rolling : Rolling σ α}
    {onSuccess : α → Session σ → Answer × Session σ}
    (hsuccess : ∀ result session,
      (onSuccess result session).2.totals.toList =
        session.totals.toList ++ (onSuccess result session).1.totals) :
    (session.advance rolling onSuccess).2.totals.toList =
      session.totals.toList ++
        (session.advance rolling onSuccess).1.totals := by
  unfold advance
  split
  · exact hsuccess _ _
  · exact (List.append_nil _).symm

/-- A step that fails changes nothing but the feed. -/
theorem step_of_isFailure
    (hfailure : (session.step source step).1.IsFailure) :
    (session.step source step).2 =
      { session with feed := (session.step source step).2.feed } := by
  cases step with
  | write name text =>
    simp only [Session.step] at hfailure ⊢
    split at hfailure
    · exact hfailure.elim
    · rfl
  | roll name mode =>
    simp only [Session.step] at hfailure ⊢
    split at hfailure
    · rfl
    · exact advance_of_isFailure (fun _ _ => id) hfailure
  | rollMany name times mode =>
    simp only [Session.step] at hfailure ⊢
    split at hfailure
    · rfl
    · exact advance_of_isFailure (fun _ _ => id) hfailure
  | summarize =>
    simp only [Session.step] at hfailure ⊢
    split at hfailure
    · exact hfailure.elim
    · rfl
  | present index quiet =>
    simp only [Session.step] at hfailure ⊢
    split at hfailure
    · rfl
    · split at hfailure
      · exact hfailure.elim
      · rfl
  | clear => exact hfailure.elim

/-- A step that does not clear keeps the totals, and those of its answer follow
them. -/
theorem totals_step_of_ne_clear (hstep : step ≠ .clear) :
    (session.step source step).2.totals.toList =
      session.totals.toList ++ (session.step source step).1.totals := by
  cases step with
  | write name text =>
    simp only [Session.step]
    split <;> exact (List.append_nil _).symm
  | roll name mode =>
    simp only [Session.step]
    split
    · exact (List.append_nil _).symm
    · exact totals_advance fun roll session => Array.toList_push
  | rollMany name times mode =>
    simp only [Session.step]
    split
    · exact (List.append_nil _).symm
    · exact totals_advance fun rolls session => Array.toList_appendList
  | summarize =>
    simp only [Session.step]
    split <;> exact (List.append_nil _).symm
  | present index quiet =>
    simp only [Session.step]
    split
    · exact (List.append_nil _).symm
    · split <;> exact (List.append_nil _).symm
  | clear => exact absurd rfl hstep

/-! ## What an evening comes to -/

theorem run_cons :
    session.run source (step :: steps) =
      ((session.step source step).1 ::
          ((session.step source step).2.run source steps).1,
        ((session.step source step).2.run source steps).2) := rfl

/-- Steps that all fail change nothing but the feed. -/
theorem run_of_forall_isFailure
    (hfailures : ∀ answer ∈ (session.run source steps).1, answer.IsFailure) :
    (session.run source steps).2 =
      { session with feed := (session.run source steps).2.feed } := by
  induction steps generalizing session with
  | nil => rfl
  | cons step steps ih =>
    rw [run_cons] at hfailures ⊢
    obtain ⟨hfailure, hlater⟩ := List.forall_mem_cons.mp hfailures
    have hnext := step_of_isFailure hfailure
    generalize (session.step source step).2 = next at hnext hlater ⊢
    calc
      (next.run source steps).2
        = { next with feed := (next.run source steps).2.feed } := ih hlater
      _ = { session with feed := (next.run source steps).2.feed } := by
        rw [hnext]

/-- Until they are cleared, the totals are those of all answers, in order. -/
theorem totals_run_of_not_mem_clear (hsteps : Step.clear ∉ steps) :
    (session.run source steps).2.totals.toList =
      session.totals.toList ++
        (session.run source steps).1.flatMap Answer.totals := by
  induction steps generalizing session with
  | nil => exact (List.append_nil _).symm
  | cons step steps ih =>
    have hstep : step ≠ .clear := (List.ne_of_not_mem_cons hsteps).symm
    rw [run_cons, List.flatMap_cons, ← List.append_assoc,
      ← totals_step_of_ne_clear hstep]
    exact ih (List.not_mem_of_not_mem_cons hsteps)

end Steps

end Session

end TabletopDice
