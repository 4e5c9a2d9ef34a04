import TabletopDice.Proofs.Account

/-!
# Scripts and the rolls made of them

A script that an expression uses up falls into blocks, one for each term, and
each detail of the roll is made of the block of its term.  Conversely, blocks
that details are made of, written one after another, are a script from which
an expression with those terms is rolled to those details.
-/

namespace TabletopDice

theorem DiceTerm.length_requests (mode : Mode) (term : DiceTerm) :
    (term.requests mode).length =
      if term.IsDoubled mode then 2 else term.count.toNat := by
  unfold requests
  split
  · rfl
  · exact List.length_replicate

/-- The block answers the requests of the term, and the detail is what the
term records of it. -/
structure Detail.MadeOf (mode : Mode) (detail : Detail) (block : List ℤ) :
    Prop where
  length : block.length = (detail.term.requests mode).length
  detail_eq : detail.term.detail mode block = detail

theorem DiceTerm.madeOf_detail {mode : Mode} {term : DiceTerm}
    {block : List ℤ} (hblock : block.length = (term.requests mode).length) :
    (term.detail mode block).MadeOf mode block where
  length := hblock
  detail_eq := rfl

namespace Detail

variable {mode : Mode} {details : List Detail} {parts : List (List ℤ)}

theorem length_flatten_of_madeOf
    (hparts : List.Forall₂ (MadeOf mode) details parts) :
    parts.flatten.length =
      ((details.map Detail.term).flatMap (DiceTerm.requests mode)).length := by
  induction hparts with
  | nil => rfl
  | cons hpart hparts ih =>
      rw [List.flatten_cons, List.length_append, hpart.length, ih,
        List.map_cons, List.flatMap_cons, List.length_append]

/-- The blocks are found again in the script that they make up. -/
theorem blocks_flatten_of_madeOf
    (hparts : List.Forall₂ (MadeOf mode) details parts) :
    blocks ((details.map Detail.term).map (DiceTerm.requests mode))
      parts.flatten = parts := by
  induction hparts with
  | nil => rfl
  | cons hpart hparts ih =>
      rw [List.map_cons, List.map_cons, blocks_cons, List.flatten_cons,
        List.take_left' hpart.length, List.drop_left' hpart.length, ih]

theorem zipWith_detail_of_madeOf
    (hparts : List.Forall₂ (MadeOf mode) details parts) :
    List.zipWith (DiceTerm.detail mode) (details.map Detail.term) parts =
      details := by
  induction hparts with
  | nil => rfl
  | cons hpart hparts ih =>
      rw [List.map_cons, List.zipWith_cons_cons, hpart.detail_eq, ih]

end Detail

namespace Expression

theorem outcome_eq_ofDetails (mode : Mode) (expr : Expression)
    (answers : List ℤ) :
    expr.outcome mode answers =
      Roll.ofDetails (expr.details mode answers) expr.flatTotal :=
  congrArg (Roll.mk _ _) (Int.add_comm _ _)

theorem flatten_dealt {mode : Mode} {expr : Expression} {answers : List ℤ}
    (hlength : answers.length = (expr.plan mode).length) :
    (expr.dealt mode answers).flatten = answers := by
  apply List.flatten_splitLengths
  rw [hlength, plan, List.length_flatMap, List.map_map]
  rfl

/-- Each detail of a roll is made of the block dealt to its term. -/
theorem madeOf_dealt {mode : Mode} {expr : Expression} {answers : List ℤ}
    (hlength : answers.length = (expr.plan mode).length) :
    List.Forall₂ (Detail.MadeOf mode) (expr.details mode answers)
      (expr.dealt mode answers) := by
  have hdealt := forall₂_dealt (forall₂_true_of_length_eq hlength)
  unfold details
  generalize expr.dice = terms, expr.dealt mode answers = parts at hdealt
  induction hdealt with
  | nil => exact .nil
  | cons hpart hparts ih =>
      exact .cons (DiceTerm.madeOf_detail hpart.length_eq.symm) ih

/-- Blocks that details are made of are a script from which the terms of those
details are rolled to them. -/
theorem throw_script_of_madeOf {mode : Mode} {expr : Expression}
    {details : List Detail} {parts : List (List ℤ)}
    (hterms : details.map Detail.term = expr.dice)
    (hparts : List.Forall₂ (Detail.MadeOf mode) details parts) :
    ∃ after, expr.throw Source.script mode (.initial parts.flatten) =
        .ok (Roll.ofDetails details expr.flatTotal) after ∧
      after.requests.toList = expr.plan mode ∧ after.state = [] := by
  have hlength := Detail.length_flatten_of_madeOf hparts
  have hblocks := Detail.blocks_flatten_of_madeOf hparts
  have hdetails := Detail.zipWith_detail_of_madeOf hparts
  rw [hterms] at hlength hblocks hdetails
  obtain ⟨after, hrun, hrest⟩ := expr.throw_script mode hlength
  have hsame : expr.details mode parts.flatten = details := by
    unfold Expression.details dealt
    rw [hblocks, hdetails]
  rw [outcome_eq_ofDetails, hsame] at hrun
  exact ⟨after, hrun, hrest⟩

end Expression

end TabletopDice
