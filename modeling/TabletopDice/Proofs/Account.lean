import TabletopDice.Summary
import TabletopDice.Proofs.Canonical
import TabletopDice.Proofs.Answers
import TabletopDice.Proofs.Throw

/-!
# What a record accounts for

A roll accounts for an expression if it has one detail for each term, with as
many dice as the term counts, and its sums are the sums of what it shows.
Every roll of a record accounts for the expression that the canonical text of
the record is read as, so a record can be checked from its own text.
-/

namespace TabletopDice

open Rolling

variable {σ : Type}

/-! ## One roll -/

structure Roll.Accounts (roll : Roll) (expr : Expression) : Prop where
  terms : roll.details.map Detail.term = expr.dice
  count : ∀ detail ∈ roll.details,
    (detail.rolls.length : ℤ) = detail.term.count
  subtotal : ∀ detail ∈ roll.details,
    detail.subtotal = detail.term.sign * detail.rolls.sum
  flatTotal : roll.flatTotal = (expr.modifiers.map fun m => m.sign * m.value).sum
  total : roll.total = roll.flatTotal + (roll.details.map Detail.subtotal).sum

theorem Mode.length_keep_pair {mode : Mode} (hmode : mode ≠ .plain)
    (first second : ℤ) : (mode.keep [first, second]).length = 1 := by
  cases mode with
  | plain => exact absurd rfl hmode
  | advantage => rfl
  | disadvantage => rfl

/-- A term records one roll for each die that it counts. -/
theorem DiceTerm.length_recorded {mode : Mode} {term : DiceTerm}
    {block : List ℤ} (hblock : block.length = (term.requests mode).length) :
    (term.recorded mode block).length = term.count.toNat := by
  unfold DiceTerm.requests at hblock
  unfold DiceTerm.recorded
  by_cases hterm : term.IsDoubled mode
  · rw [if_pos hterm] at hblock ⊢
    obtain ⟨first, second, hpair⟩ := List.length_eq_two.mp hblock
    obtain ⟨hmode, -, hcount⟩ := hterm
    rw [hpair, Mode.length_keep_pair hmode, hcount]
    rfl
  · rw [if_neg hterm, List.length_replicate] at hblock
    rw [if_neg hterm]
    exact hblock

namespace Expression

/-- What holds of the answers to the requests of a roll holds of the block of
each term. -/
theorem forall₂_dealt {r : Request → ℤ → Prop} {mode : Mode}
    {expr : Expression} {answers : List ℤ}
    (hanswers : List.Forall₂ r (expr.plan mode) answers) :
    List.Forall₂
      (fun term block => List.Forall₂ r (DiceTerm.requests mode term) block)
      expr.dice (expr.dealt mode answers) := by
  unfold plan at hanswers
  rw [List.flatMap_def] at hanswers
  exact List.forall₂_map_left_iff.mp (forall₂_blocks hanswers)

theorem exists_block_of_mem_details {r : Request → ℤ → Prop} {mode : Mode}
    {expr : Expression} {answers : List ℤ}
    (hanswers : List.Forall₂ r (expr.plan mode) answers) {detail : Detail}
    (hdetail : detail ∈ expr.details mode answers) :
    ∃ term ∈ expr.dice, ∃ block,
      List.Forall₂ r (term.requests mode) block ∧
        detail = term.detail mode block := by
  have hdealt := forall₂_dealt hanswers
  unfold details at hdetail
  generalize expr.dice = terms, expr.dealt mode answers = blocks
    at hdealt hdetail ⊢
  induction hdealt with
  | nil => cases hdetail
  | @cons term block terms blocks hblock hrest ih =>
      rcases List.mem_cons.mp hdetail with hfirst | hlater
      · exact ⟨term, List.mem_cons_self, block, hblock, hfirst⟩
      · obtain ⟨other, hmem, hother⟩ := ih hlater
        exact ⟨other, List.mem_cons_of_mem term hmem, hother⟩

theorem forall₂_true_of_length_eq {plan : List Request} {answers : List ℤ}
    (hlength : answers.length = plan.length) :
    List.Forall₂ (fun _ _ => True) plan answers :=
  List.forall₂_iff_get.mpr ⟨hlength.symm, fun _ _ _ => trivial⟩

theorem WellFormed.accounts_outcome {expr : Expression}
    (hexpr : expr.WellFormed) {mode : Mode} {answers : List ℤ}
    (hlength : answers.length = (expr.plan mode).length) :
    (expr.outcome mode answers).Accounts expr := by
  have hanswers := forall₂_true_of_length_eq hlength
  constructor
  · exact expr.map_term_details mode answers
  · intro detail hdetail
    obtain ⟨term, hterm, block, hblock, hdetail⟩ :=
      exists_block_of_mem_details hanswers hdetail
    have hcount := (hexpr.dice term hterm).count
    have hrolls := term.length_recorded hblock.length_eq.symm
    rw [hdetail]
    change ((term.recorded mode block).length : ℤ) = term.count
    omega
  · intro detail hdetail
    obtain ⟨term, hterm, block, hblock, hdetail⟩ :=
      exists_block_of_mem_details hanswers hdetail
    rw [hdetail]
    rfl
  · rfl
  · rfl

/-- A roll is the outcome of the answers to its requests. -/
theorem exists_answers_of_throw_eq_ok {source : Source σ} {mode : Mode}
    {expr : Expression} {feed after : Feed σ} {roll : Roll}
    (hroll : expr.throw source mode feed = .ok roll after) :
    (source.ask (expr.plan mode) feed.state).refusal = none ∧
      roll = expr.outcome mode
        (source.ask (expr.plan mode) feed.state).answers :=
  (expr.follows_throw source mode).granted_of_eq_ok hroll

theorem WellFormed.accounts_of_throw_eq_ok {source : Source σ} {mode : Mode}
    {expr : Expression} (hexpr : expr.WellFormed) {feed after : Feed σ}
    {roll : Roll} (hroll : expr.throw source mode feed = .ok roll after) :
    roll.Accounts expr := by
  obtain ⟨hgranted, houtcome⟩ := exists_answers_of_throw_eq_ok hroll
  rw [houtcome]
  exact hexpr.accounts_outcome (source.length_answers_of_granted hgranted)

end Expression

/-! ## The summary -/

/-- A summary of at least one total counts them all, and its extremes are
totals that bound all others. -/
structure Summary.Covers (summary : Summary) (totals : List ℤ) : Prop where
  count : summary.count = totals.length
  least_mem : summary.least ∈ totals
  least_le : ∀ total ∈ totals, summary.least ≤ total
  greatest_mem : summary.greatest ∈ totals
  le_greatest : ∀ total ∈ totals, total ≤ summary.greatest

theorem Summary.exists_covers_of_ofTotals_eq_ok {totals : List ℤ}
    (hne : totals ≠ []) {found : Option Summary}
    (hfound : Summary.ofTotals totals = .ok found) :
    ∃ summary, found = some summary ∧ summary.Covers totals := by
  cases totals with
  | nil => exact absurd rfl hne
  | cons first rest =>
      have hleast : (first :: rest).min? = some (rest.foldl min first) := rfl
      have hgreatest : (first :: rest).max? = some (rest.foldl max first) :=
        rfl
      rw [List.min?_eq_some_iff] at hleast
      rw [List.max?_eq_some_iff] at hgreatest
      rw [Summary.ofTotals_cons] at hfound
      generalize Number.Binary64.ofQuotient? _ _ = mean at hfound
      cases mean with
      | none => cases hfound
      | some mean =>
          refine ⟨_, (Except.ok.inj hfound).symm, ?_⟩
          exact ⟨rfl, hleast.1, hleast.2, hgreatest.1, hgreatest.2⟩

end TabletopDice
