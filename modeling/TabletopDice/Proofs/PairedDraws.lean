import TabletopDice.Proofs.Script

/-!
# Draws in pairs

When a mode keeps one of two rolls, a single twenty-sided die uses two draws
in a row.  Here the draws are dealt out to the terms by walking along both
lists, without regard to the rolls that they are made for.  Every pair met on
the way is one resolution, also if the draws end early, and what the resolution
keeps is the roll on record for the die.
-/

namespace TabletopDice

variable {mode : Mode}

/-! ## Dealing out the draws -/

/-- The pairs of draws of the single twenty-sided dice among the terms.  Such
a die uses two draws in a row, and any other term one for each of its dice. -/
def pairedDraws (mode : Mode) : List DiceTerm → List ℤ → List (ℤ × ℤ)
  | [], _ => []
  | _ :: _, [] => []
  | term :: terms, first :: rest =>
    if term.IsDoubled mode then
      match rest with
      | [] => []
      | second :: later => (first, second) :: pairedDraws mode terms later
    else pairedDraws mode terms ((first :: rest).drop term.count.toNat)

/-- The roll that is kept: the smaller under disadvantage, the greater under
advantage. -/
def Mode.kept : Mode → ℤ × ℤ → ℤ
  | .disadvantage, (first, second) => min first second
  | _, (first, second) => max first second

def Mode.resolution (mode : Mode) (pair : ℤ × ℤ) : Resolution where
  mode := mode
  first := pair.1
  second := pair.2
  kept := mode.kept pair

@[simp] theorem pairedDraws_nil (mode : Mode) (terms : List DiceTerm) :
    pairedDraws mode terms [] = [] := by
  cases terms with
  | nil => rfl
  | cons term terms => rfl

theorem pairedDraws_cons_of_isDoubled {term : DiceTerm}
    (hterm : term.IsDoubled mode) (terms : List DiceTerm) (first second : ℤ)
    (later : List ℤ) :
    pairedDraws mode (term :: terms) (first :: second :: later) =
      (first, second) :: pairedDraws mode terms later :=
  if_pos hterm

/-- A single draw is no pair, and no term after it gets any. -/
theorem pairedDraws_singleton {term : DiceTerm}
    (hterm : term.IsDoubled mode) (terms : List DiceTerm) (draw : ℤ) :
    pairedDraws mode (term :: terms) [draw] = [] :=
  if_pos hterm

theorem pairedDraws_cons_of_not_isDoubled {term : DiceTerm}
    (hterm : ¬ term.IsDoubled mode) (terms : List DiceTerm) (draws : List ℤ) :
    pairedDraws mode (term :: terms) draws =
      pairedDraws mode terms (draws.drop term.count.toNat) := by
  cases draws with
  | nil => rw [List.drop_nil, pairedDraws_nil, pairedDraws_nil]
  | cons first rest => exact if_neg hterm

theorem pairedDraws_append (terms more : List DiceTerm) (draws : List ℤ) :
    pairedDraws mode (terms ++ more) draws =
      pairedDraws mode terms draws ++ pairedDraws mode more
        (draws.drop (terms.flatMap (DiceTerm.requests mode)).length) := by
  induction terms generalizing draws with
  | nil => rfl
  | cons term terms ih =>
      rw [List.cons_append, List.flatMap_cons, List.length_append,
        ← List.drop_drop]
      by_cases hterm : term.IsDoubled mode
      · rw [DiceTerm.length_requests, if_pos hterm]
        -- If the draws end at this die, no term behind it gets a pair.
        rcases draws with _ | ⟨first, _ | ⟨second, later⟩⟩
        · simp
        · simp [pairedDraws_singleton hterm]
        · rw [pairedDraws_cons_of_isDoubled hterm,
            pairedDraws_cons_of_isDoubled hterm, ih]
          rfl
      · rw [DiceTerm.length_requests, if_neg hterm,
          pairedDraws_cons_of_not_isDoubled hterm,
          pairedDraws_cons_of_not_isDoubled hterm, ih]

/-! ## Resolutions -/

theorem Mode.resolved_pair_eq (hmode : mode ≠ .plain) (first second : ℤ) :
    mode.resolved [first, second] = [mode.resolution (first, second)] := by
  cases mode with
  | plain => exact absurd rfl hmode
  | advantage => rfl
  | disadvantage => rfl

theorem Mode.keep_pair_eq (hmode : mode ≠ .plain) (first second : ℤ) :
    mode.keep [first, second] = [mode.kept (first, second)] := by
  cases mode with
  | plain => exact absurd rfl hmode
  | advantage => rfl
  | disadvantage => rfl

/-- The resolutions recorded for the blocks of draws are those of the pairs. -/
theorem flatten_resolved_blocks (terms : List DiceTerm) (draws : List ℤ) :
    (List.zipWith (DiceTerm.resolved mode) terms
      (blocks (terms.map (DiceTerm.requests mode)) draws)).flatten =
      (pairedDraws mode terms draws).map mode.resolution := by
  induction terms generalizing draws with
  | nil => rfl
  | cons term terms ih =>
      rw [List.map_cons, blocks_cons, List.zipWith_cons_cons,
        List.flatten_cons, ih]
      by_cases hterm : term.IsDoubled mode
      · rw [DiceTerm.length_requests, if_pos hterm, DiceTerm.resolved,
          if_pos hterm]
        rcases draws with _ | ⟨first, _ | ⟨second, later⟩⟩
        · simp
        · simp [pairedDraws_singleton hterm]
        · rw [pairedDraws_cons_of_isDoubled hterm]
          exact congrArg (· ++ _) (Mode.resolved_pair_eq hterm.1 first second)
      · rw [DiceTerm.length_requests, if_neg hterm, DiceTerm.resolved,
          if_neg hterm, pairedDraws_cons_of_not_isDoubled hterm,
          List.nil_append]

/-- What is on record for the terms that were rolled twice. -/
def keptRolls (mode : Mode) (details : List Detail) : List ℤ :=
  details.flatMap fun detail =>
    if detail.term.IsDoubled mode then detail.rolls else []

/-- What is on record for a term rolled twice is what was kept of its pair. -/
theorem keptRolls_details (terms : List DiceTerm) {draws : List ℤ}
    (hfull : (terms.flatMap (DiceTerm.requests mode)).length ≤ draws.length) :
    keptRolls mode (List.zipWith (DiceTerm.detail mode) terms
        (blocks (terms.map (DiceTerm.requests mode)) draws)) =
      (pairedDraws mode terms draws).map mode.kept := by
  induction terms generalizing draws with
  | nil => rfl
  | cons term terms ih =>
      rw [List.flatMap_cons, List.length_append] at hfull
      have hlater : (terms.flatMap (DiceTerm.requests mode)).length ≤
          (draws.drop (term.requests mode).length).length := by
        rw [List.length_drop]
        omega
      have hrest := ih hlater
      unfold keptRolls at hrest ⊢
      rw [List.map_cons, blocks_cons, List.zipWith_cons_cons,
        List.flatMap_cons, hrest]
      by_cases hterm : term.IsDoubled mode
      · rw [DiceTerm.length_requests, if_pos hterm] at hfull ⊢
        obtain ⟨first, second, later, rfl⟩ :
            ∃ first second later, draws = first :: second :: later := by
          rcases draws with _ | ⟨first, _ | ⟨second, later⟩⟩
          · rw [List.length_nil] at hfull
            omega
          · rw [List.length_singleton] at hfull
            omega
          · exact ⟨first, second, later, rfl⟩
        have hkept : term.recorded mode [first, second] =
            [mode.kept (first, second)] := by
          rw [DiceTerm.recorded, if_pos hterm, Mode.keep_pair_eq hterm.1]
        rw [pairedDraws_cons_of_isDoubled hterm]
        exact congrArg (· ++ _) ((if_pos hterm).trans hkept)
      · rw [DiceTerm.length_requests, if_neg hterm,
          pairedDraws_cons_of_not_isDoubled hterm]
        exact congrArg (· ++ _) (if_neg hterm)

/-! ## Repeated rolls -/

namespace Expression

variable (expr : Expression)

/-- The terms of so many rolls, one roll after another. -/
def repeatedDice (n : ℕ) : List DiceTerm :=
  (List.replicate n expr.dice).flatten

theorem repeatedDice_succ (n : ℕ) :
    expr.repeatedDice (n + 1) = expr.dice ++ expr.repeatedDice n := by
  unfold repeatedDice
  rw [List.replicate_succ, List.flatten_cons]

theorem flatMap_requests_repeatedDice (n : ℕ) :
    (expr.repeatedDice n).flatMap (DiceTerm.requests mode) =
      (List.replicate n (expr.plan mode)).flatten := by
  induction n with
  | zero => rfl
  | succ n ih =>
      rw [repeatedDice_succ, List.flatMap_append, ih, List.replicate_succ,
        List.flatten_cons]
      rfl

theorem resolutions_eq_map_pairedDraws (answers : List ℤ) :
    expr.resolutions mode answers =
      (pairedDraws mode expr.dice answers).map mode.resolution :=
  flatten_resolved_blocks expr.dice answers

theorem flatMap_resolutions_blocks (n : ℕ) (answers : List ℤ) :
    (blocks (List.replicate n (expr.plan mode)) answers).flatMap
        (expr.resolutions mode) =
      (pairedDraws mode (expr.repeatedDice n) answers).map
        mode.resolution := by
  induction n generalizing answers with
  | zero => rfl
  | succ n ih =>
      have hfirst : expr.resolutions mode
          (answers.take (expr.plan mode).length) =
            expr.resolutions mode answers := by
        unfold resolutions
        rw [dealt_take]
      rw [List.replicate_succ, blocks_cons, List.flatMap_cons, ih, hfirst,
        repeatedDice_succ, pairedDraws_append, List.map_append,
        resolutions_eq_map_pairedDraws]
      rfl

theorem flatMap_keptRolls_blocks (n : ℕ) {answers : List ℤ}
    (hfull : (List.replicate n (expr.plan mode)).flatten.length ≤
      answers.length) :
    ((blocks (List.replicate n (expr.plan mode)) answers).map
        (expr.outcome mode)).flatMap (fun roll => keptRolls mode roll.details) =
      (pairedDraws mode (expr.repeatedDice n) answers).map mode.kept := by
  induction n generalizing answers with
  | zero => rfl
  | succ n ih =>
      rw [List.replicate_succ, List.flatten_cons, List.length_append] at hfull
      have hlater : (List.replicate n (expr.plan mode)).flatten.length ≤
          (answers.drop (expr.plan mode).length).length := by
        rw [List.length_drop]
        omega
      have hfirst : keptRolls mode (expr.details mode
          (answers.take (expr.plan mode).length)) =
            (pairedDraws mode expr.dice answers).map mode.kept := by
        rw [details_take]
        exact keptRolls_details expr.dice (by unfold plan at hfull; omega)
      rw [List.replicate_succ, blocks_cons, List.map_cons, List.flatMap_cons,
        ih hlater, repeatedDice_succ, pairedDraws_append, List.map_append]
      exact congrArg (· ++ _) hfirst

end Expression

end TabletopDice
