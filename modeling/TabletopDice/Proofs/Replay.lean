import TabletopDice.Proofs.Calls
import TabletopDice.Proofs.Script

/-!
# Rolling a result again

The rolls that a result records are a script from which the same expression is
rolled to the same result.  A roll that was kept of two has to stand in the
script twice if the die is doubled again, and once if it is not.
-/

namespace TabletopDice

variable {σ : Type}

/-! ## One detail -/

namespace Detail

/-- The answers from which a term records the same rolls again: a die that the
mode doubles is given its roll twice. -/
def replay (mode : Mode) (detail : Detail) : List ℤ :=
  if detail.term.IsDoubled mode then
    detail.rolls.flatMap fun roll => [roll, roll]
  else detail.rolls

theorem replay_plain (detail : Detail) : detail.replay .plain = detail.rolls :=
  if_neg fun hdoubled => hdoubled.1 rfl

variable {mode : Mode} {detail : Detail}

theorem exists_rolls_eq_singleton (hdoubled : detail.term.IsDoubled mode)
    (hcount : detail.rolls.length = detail.term.count.toNat) :
    ∃ roll, detail.rolls = [roll] := by
  obtain ⟨-, -, hone⟩ := hdoubled
  rw [hone] at hcount
  exact List.length_eq_one_iff.mp hcount

theorem length_replay (hcount : detail.rolls.length = detail.term.count.toNat) :
    (detail.replay mode).length = (detail.term.requests mode).length := by
  rw [DiceTerm.length_requests]
  unfold replay
  split
  next hdoubled =>
    obtain ⟨roll, hroll⟩ := exists_rolls_eq_singleton hdoubled hcount
    rw [hroll]
    rfl
  next => exact hcount

theorem recorded_replay
    (hcount : detail.rolls.length = detail.term.count.toNat) :
    detail.term.recorded mode (detail.replay mode) = detail.rolls := by
  unfold replay DiceTerm.recorded
  split
  next hdoubled =>
    -- Of two rolls that are the same, better and worse is all one.
    obtain ⟨roll, hroll⟩ := exists_rolls_eq_singleton hdoubled hcount
    rw [hroll]
    exact Mode.keep_twice hdoubled.1 roll
  next => rfl

/-- A detail that adds up is made of its own rolls, in whichever mode. -/
theorem madeOf_replay (hcount : detail.rolls.length = detail.term.count.toNat)
    (hsubtotal : detail.subtotal = detail.term.sign * detail.rolls.sum) :
    detail.MadeOf mode (detail.replay mode) where
  length := length_replay hcount
  detail_eq := by
    unfold DiceTerm.detail
    rw [recorded_replay hcount, ← hsubtotal]

end Detail

/-! ## The whole roll -/

namespace Expression

/-- Whatever mode a roll was made in, it is made again from its own rolls in
any other. -/
theorem throw_replay {source : Source σ} {mode : Mode} {expr : Expression}
    {feed after : Feed σ} {roll : Roll}
    (hroll : expr.throw source mode feed = .ok roll after) (again : Mode) :
    ∃ last, expr.throw Source.script again
        (.initial (roll.details.flatMap (Detail.replay again))) =
          .ok roll last ∧
      last.state = [] := by
  obtain ⟨hgranted, houtcome⟩ := exists_answers_of_throw_eq_ok hroll
  have hlength := source.length_answers_of_granted hgranted
  subst houtcome
  generalize (source.ask (expr.plan mode) feed.state).answers = answers
    at hlength ⊢
  have hmade : ∀ detail ∈ expr.details mode answers,
      detail.MadeOf again (detail.replay again) := by
    intro detail hdetail
    obtain ⟨term, -, block, hblock, rfl⟩ := exists_block_of_mem_details
      (forall₂_true_of_length_eq hlength) hdetail
    have hcount := term.length_recorded hblock.length_eq.symm
    exact Detail.madeOf_replay hcount rfl
  have hparts : List.Forall₂ (Detail.MadeOf again) (expr.details mode answers)
      ((expr.details mode answers).map (Detail.replay again)) :=
    List.forall₂_map_right_iff.mpr (List.forall₂_same.mpr hmade)
  obtain ⟨last, hrun, -, hstate⟩ :=
    throw_script_of_madeOf (expr.map_term_details mode answers) hparts
  rw [← outcome_eq_ofDetails, ← List.flatMap_def] at hrun
  exact ⟨last, hrun, hstate⟩

/-- A roll made against any source that always answers can be made again from
what it records.  In the mode without doubled dice the recorded rolls
themselves, in order, are a script that yields the same roll and is used up.
The same holds in the mode of the roll, and in every other, if the roll of each
lone twenty-sided die is written twice. -/
theorem recorded_rolls_replay {source : Source σ}
    (hsource : source.AlwaysAnswers) (mode : Mode) (expr : Expression)
    (feed : Feed σ) :
    ∃ roll after, expr.roll source mode.name feed = .ok roll after ∧
      (∃ last, expr.roll Source.script "none"
          (.initial (roll.details.flatMap Detail.rolls)) = .ok roll last ∧
        last.state = []) ∧
      ∀ again : Mode, ∃ last,
        expr.roll Source.script again.name
            (.initial (roll.details.flatMap fun detail =>
              if again ≠ .plain ∧ detail.term.sides = 20 ∧
                  detail.term.count = 1 then
                detail.rolls.flatMap fun value => [value, value]
              else detail.rolls)) = .ok roll last ∧
          last.state = [] := by
  obtain ⟨roll, after, hroll⟩ := expr.exists_ok_throw hsource mode feed
  have hreplay (again : Mode) := throw_replay hroll again
  rw [← roll_mode_name] at hroll
  simp only [← roll_mode_name] at hreplay
  refine ⟨roll, after, hroll, ?_, hreplay⟩
  have hplain := hreplay .plain
  rw [funext Detail.replay_plain] at hplain
  exact hplain

theorem recorded_rolls_replay_kept_d20 :
    let expr : Expression :=
      ⟨[⟨1, 20, -1⟩, ⟨-2, 8, 1⟩, ⟨2, 6, 1⟩], [⟨4, 1⟩]⟩
    let result : Roll :=
      ⟨[⟨⟨1, 20, -1⟩, [4], -4⟩, ⟨⟨-2, 8, 1⟩, [], 0⟩, ⟨⟨2, 6, 1⟩, [6, 1], 7⟩],
        4, 7⟩
    (Source.linear 3 7).AlwaysAnswers ∧
      (∃ after, expr.roll (Source.linear 3 7) Mode.disadvantage.name
        (.initial 0) = .ok result after) ∧
      (∃ last, expr.roll Source.script "none" (.initial [4, 6, 1]) =
          .ok result last ∧ last.state = []) ∧
      ∃ last, expr.roll Source.script Mode.disadvantage.name
          (.initial [4, 4, 6, 1]) = .ok result last ∧ last.state = [] := by
  intro expr result
  have hsource := Source.linear_alwaysAnswers 3 7
  obtain ⟨roll, after, hroll, hplain, hagain⟩ :=
    recorded_rolls_replay hsource .disadvantage expr (.initial 0)
  cases hroll
  exact ⟨hsource, ⟨_, rfl⟩, hplain, hagain .disadvantage⟩

end Expression

end TabletopDice
