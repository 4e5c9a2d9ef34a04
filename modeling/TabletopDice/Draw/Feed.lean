import TabletopDice.Failure

/-!
# Rolling against a source

A feed is the state of a source together with what has happened so far: the
requests made, and how each single twenty-sided die was resolved.  A rolling is
a computation that may draw from a feed; when it fails, the feed stays as it was
when the failure arose.
-/

namespace TabletopDice

/-- Two rolls of one die, of which one was kept. -/
structure Resolution where
  mode : Mode
  first : Int
  second : Int
  kept : Int
  deriving DecidableEq, Repr

structure Feed (σ : Type) where
  state : σ
  requests : Array Request := #[]
  resolutions : Array Resolution := #[]

def Feed.initial {σ : Type} (state : σ) : Feed σ :=
  { state }

abbrev Rolling (σ : Type) := EStateM Failure (Feed σ)

namespace Rolling

variable {σ α : Type}

/-- Draws one integer; the request is recorded even if the source refuses. -/
def draw (source : Source σ) (low high : Int) : Rolling σ Int
  | ⟨state, requests, resolutions⟩ =>
    let (answer, state) := source.draw ⟨low, high⟩ state
    let feed := ⟨state, requests.push ⟨low, high⟩, resolutions⟩
    match answer with
    | .ok value => .ok value feed
    | .error failure => .error (.draw failure) feed

def resolve (resolution : Resolution) : Rolling σ Unit :=
  modify fun feed => { feed with resolutions := feed.resolutions.push resolution }

/-- The results of `n` runs of an action, in order, after those already
collected. -/
def collect (action : Rolling σ α) :
    (n : Nat) → (collected : List α) → Rolling σ (List α)
  | 0, collected => pure collected.reverse
  | n + 1, collected => do
    let result ← action
    collect action n (result :: collected)

def repeated (n : Nat) (action : Rolling σ α) : Rolling σ (List α) :=
  collect action n []

theorem collect_eq (action : Rolling σ α) (n : Nat) (collected : List α) :
    collect action n collected =
      (collected.reverse ++ ·) <$> repeated n action := by
  induction n generalizing collected with
  | zero => simp [repeated, collect]
  | succ n ih =>
    simp only [repeated, collect]
    rw [map_bind]
    congr 1
    funext result
    rw [ih, ih [result]]
    simp

@[simp] theorem repeated_zero (action : Rolling σ α) :
    repeated 0 action = pure [] := rfl

theorem repeated_succ (action : Rolling σ α) (n : Nat) :
    repeated (n + 1) action = do
      let result ← action
      let rest ← repeated n action
      return result :: rest := by
  change (do let result ← action; collect action n [result]) = _
  congr 1
  funext result
  rw [collect_eq]
  simp

/-- A check that draws nothing. -/
def require (result : Except Failure α) : Rolling σ α :=
  match result with
  | .ok value => pure value
  | .error failure => throw failure

end Rolling

end TabletopDice
