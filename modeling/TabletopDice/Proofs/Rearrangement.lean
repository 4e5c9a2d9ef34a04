import TabletopDice.Proofs.Script
import Mathlib.Data.List.FinRange

/-!
# The order of terms

The terms of an expression may be written in any order.  If the blocks of a
script are rearranged with the terms that they belong to, the same details come
out, rearranged in the same way, and the totals do not change.
-/

namespace TabletopDice

/-! ## Rearranged lists -/

section

variable {n : ℕ} {α β : Type}

/-- The members of a list of length `n`, each in the place that a permutation
gives it. -/
def rearranged (order : Equiv.Perm (Fin n)) (xs : List α) : List α :=
  (List.finRange n).filterMap fun place => xs[(order place).val]?

variable (order : Equiv.Perm (Fin n))

theorem rearranged_eq_ofFn {xs : List α} (hlength : xs.length = n) :
    rearranged order xs =
      List.ofFn fun place => xs.get ((order place).cast hlength.symm) := by
  subst hlength
  have hmember (place : Fin xs.length) : xs[(order place).val]? =
      some (xs.get (order place)) := List.getElem?_eq_getElem _
  unfold rearranged
  simp only [hmember]
  rw [List.filterMap_eq_map', List.ofFn_eq_map]
  rfl

theorem map_rearranged (f : α → β) (xs : List α) :
    (rearranged order xs).map f = rearranged order (xs.map f) := by
  unfold rearranged
  simp only [List.map_filterMap, List.getElem?_map]

theorem rearranged_perm {xs : List α} (hlength : xs.length = n) :
    (rearranged order xs).Perm xs := by
  subst hlength
  rw [rearranged_eq_ofFn order rfl]
  have hperm := order.ofFn_comp_perm xs.get
  rw [List.ofFn_get] at hperm
  exact hperm

theorem forall₂_rearranged {r : α → β → Prop} {xs : List α} {ys : List β}
    (hlength : xs.length = n) (hmembers : List.Forall₂ r xs ys) :
    List.Forall₂ r (rearranged order xs) (rearranged order ys) := by
  have hother : ys.length = n := hmembers.length_eq.symm.trans hlength
  rw [rearranged_eq_ofFn order hlength, rearranged_eq_ofFn order hother,
    List.forall₂_iff_get]
  refine ⟨by rw [List.length_ofFn, List.length_ofFn], ?_⟩
  intro place hleft hright
  rw [List.get_ofFn, List.get_ofFn]
  exact hmembers.get _ _

end

/-! ## Totals -/

theorem Number.sum_perm {values others : List ℤ} (hperm : values.Perm others) :
    Number.sum values = Number.sum others :=
  hperm.sum_eq

theorem Expression.flatTotal_perm {x y : Expression}
    (hperm : x.modifiers.Perm y.modifiers) : x.flatTotal = y.flatTotal :=
  Number.sum_perm (hperm.map Modifier.signed)

theorem Roll.ofDetails_perm {details others : List Detail}
    (hperm : details.Perm others) (flatTotal : ℤ) :
    Roll.ofDetails details flatTotal =
      ⟨details, flatTotal, (Roll.ofDetails others flatTotal).total⟩ := by
  have hsum := Number.sum_perm (hperm.map Detail.subtotal)
  exact congrArg (fun sum => Roll.mk details flatTotal (sum + flatTotal)) hsum

/-! ## Rearranged expressions -/

namespace Expression

theorem map_length_dealt {mode : Mode} {expr : Expression} {values : List ℤ}
    (hlength : values.length = (expr.plan mode).length) :
    (expr.dealt mode values).map List.length =
      expr.dice.map fun term => (term.requests mode).length := by
  have hsizes : (expr.dice.map (DiceTerm.requests mode)).map List.length =
      expr.dice.map fun term => (term.requests mode).length := List.map_map
  unfold dealt blocks
  rw [List.map_splitLengths_length, hsizes]
  rw [hlength, plan, List.length_flatMap, hsizes]

/-- Rearranged terms are rolled from the rearranged blocks. -/
theorem throw_rearranged {mode : Mode} {expr : Expression} {values : List ℤ}
    (hlength : values.length = (expr.plan mode).length)
    (order : Equiv.Perm (Fin expr.dice.length)) {modifiers : List Modifier}
    (hmodifiers : modifiers.Perm expr.modifiers) :
    let roll := expr.outcome mode values
    ∃ after,
      throw Source.script mode ⟨rearranged order expr.dice, modifiers⟩
          (.initial (rearranged order (expr.dealt mode values)).flatten) =
        .ok ⟨rearranged order roll.details, roll.flatTotal, roll.total⟩
          after ∧
      after.state = [] := by
  intro roll
  let other : Expression := ⟨rearranged order expr.dice, modifiers⟩
  have hterms := expr.map_term_details mode values
  have hdetails : roll.details.length = expr.dice.length := by
    rw [← hterms, List.length_map]
    rfl
  have hparts : List.Forall₂ (Detail.MadeOf mode) roll.details
      (expr.dealt mode values) := madeOf_dealt hlength
  have hother : (rearranged order roll.details).map Detail.term =
      other.dice := by
    rw [map_rearranged]
    exact congrArg (rearranged order) hterms
  obtain ⟨after, hrun, -, hstate⟩ := throw_script_of_madeOf hother
    (forall₂_rearranged order hdetails hparts)
  refine ⟨after, hrun.trans ?_, hstate⟩
  have hroll : roll = Roll.ofDetails roll.details expr.flatTotal :=
    outcome_eq_ofDetails mode expr values
  have hflat : other.flatTotal = expr.flatTotal := flatTotal_perm hmodifiers
  rw [hflat, Roll.ofDetails_perm (rearranged_perm order hdetails), ← hroll]
  rfl

/-- The order of the terms and of the modifiers does not matter.  A script of
exactly the draws that an expression needs falls into a block for each term;
if the blocks are rearranged with the terms, the new script is used up as well,
the details are those of the old roll rearranged in the same way, and the
totals are the same. -/
theorem roll_of_rearranged_terms (mode : Mode) (expr : Expression)
    {values : List ℤ} (hvalues : values.length = (expr.plan mode).length)
    (order : Equiv.Perm (Fin expr.dice.length)) {modifiers : List Modifier}
    (hmodifiers : modifiers.Perm expr.modifiers) :
    (expr.dealt mode values).flatten = values ∧
    (expr.dealt mode values).map List.length =
      expr.dice.map (fun term =>
        if mode ≠ .plain ∧ term.sides = 20 ∧ term.count = 1 then 2
        else term.count.toNat) ∧
    ∃ roll feed after,
      expr.roll Source.script mode.name (.initial values) = .ok roll feed ∧
      feed.state = [] ∧
      Expression.roll Source.script
          ⟨rearranged order expr.dice, modifiers⟩ mode.name
          (.initial (rearranged order (expr.dealt mode values)).flatten) =
        .ok ⟨rearranged order roll.details, roll.flatTotal, roll.total⟩
          after ∧
      after.state = [] := by
  refine ⟨flatten_dealt hvalues, ?_, ?_⟩
  · rw [map_length_dealt hvalues]
    apply List.map_congr_left
    intro term _
    exact (term.length_requests mode).trans (if_congr Iff.rfl rfl rfl)
  · obtain ⟨feed, hrun, -, hstate⟩ := expr.throw_script mode hvalues
    obtain ⟨after, hother, hend⟩ := throw_rearranged hvalues order hmodifiers
    simp only [roll_mode_name]
    exact ⟨_, feed, after, hrun, hstate, hother, hend⟩

theorem roll_of_rearranged_terms_lone_d20 :
    let expr : Expression :=
      ⟨[⟨1, 20, -1⟩, ⟨3, 6, 1⟩, ⟨0, 8, 1⟩], [⟨4, 1⟩, ⟨1, -1⟩]⟩
    let values : List ℤ := [9, 17, 2, 5, 3]
    values.length = (expr.plan .advantage).length ∧
      ([⟨1, -1⟩, ⟨4, 1⟩] : List Modifier).Perm expr.modifiers ∧
      ∃ feed after,
        expr.roll Source.script Mode.advantage.name
            (.initial values) =
          .ok ⟨[⟨⟨1, 20, -1⟩, [17], -17⟩, ⟨⟨3, 6, 1⟩, [2, 5, 3], 10⟩,
            ⟨⟨0, 8, 1⟩, [], 0⟩], 3, -4⟩ feed ∧
        roll Source.script
            ⟨[⟨3, 6, 1⟩, ⟨0, 8, 1⟩, ⟨1, 20, -1⟩], [⟨1, -1⟩, ⟨4, 1⟩]⟩
            Mode.advantage.name (.initial [2, 5, 3, 9, 17]) =
          .ok ⟨[⟨⟨3, 6, 1⟩, [2, 5, 3], 10⟩, ⟨⟨0, 8, 1⟩, [], 0⟩,
            ⟨⟨1, 20, -1⟩, [17], -17⟩], 3, -4⟩ after ∧
        after.state = [] := by
  intro expr values
  have hvalues : values.length = (expr.plan .advantage).length := by decide
  have hmodifiers : ([⟨1, -1⟩, ⟨4, 1⟩] : List Modifier).Perm expr.modifiers :=
    List.Perm.swap _ _ _
  obtain ⟨-, -, result, feed, after, hrun, -, hother, hstate⟩ :=
    roll_of_rearranged_terms .advantage expr hvalues (finRotate 3) hmodifiers
  cases hrun
  exact ⟨hvalues, hmodifiers, _, after, rfl, hother, hstate⟩

end Expression

end TabletopDice
