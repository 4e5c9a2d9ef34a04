import TabletopDice.Proofs.Addition
import TabletopDice.Proofs.Script

/-!
# Splitting a term

A term of many dice can be written as two neighbouring terms of fewer.  Nobody
can tell the difference as long as neither of the two is a single
twenty-sided die that a mode doubles; if one is, the split expression asks for
more.
-/

namespace TabletopDice

open Rolling

variable {σ : Type}

/-! ## Two terms as one -/

/-- Two details of terms with the same sides and sign, as the detail of one
term. -/
def Detail.joined (first second : Detail) : Detail where
  term := { first.term with count := first.term.count + second.term.count }
  rolls := first.rolls ++ second.rolls
  subtotal := first.subtotal + second.subtotal

theorem Detail.joined_eq {first second : Detail} {m n sides sign : ℤ}
    (hfirst : first.term = ⟨m, sides, sign⟩)
    (hsecond : second.term = ⟨n, sides, sign⟩) :
    first.joined second =
      ⟨⟨m + n, sides, sign⟩, first.rolls ++ second.rolls,
        first.subtotal + second.subtotal⟩ := by
  unfold joined
  rw [hfirst, hsecond]

section

variable {mode : Mode} {m n sides sign : ℤ}

theorem DiceTerm.not_isDoubled_of_two_le (hcount : 2 ≤ n) :
    ¬ DiceTerm.IsDoubled mode ⟨n, sides, sign⟩ := by
  rintro ⟨-, -, hone⟩
  dsimp only at hone
  omega

theorem DiceTerm.throwDice_joined (source : Source σ) (hm : 1 ≤ m) (hn : 1 ≤ n)
    (hfirst : ¬ DiceTerm.IsDoubled mode ⟨m, sides, sign⟩)
    (hsecond : ¬ DiceTerm.IsDoubled mode ⟨n, sides, sign⟩) :
    DiceTerm.throwDice source mode ⟨m + n, sides, sign⟩ = do
      let first ← DiceTerm.throwDice source mode ⟨m, sides, sign⟩
      let second ← DiceTerm.throwDice source mode ⟨n, sides, sign⟩
      return first ++ second := by
  have hjoined : ¬ DiceTerm.IsDoubled mode ⟨m + n, sides, sign⟩ :=
    not_isDoubled_of_two_le (by omega)
  have hcount : (m + n).toNat = m.toNat + n.toNat :=
    Int.toNat_add (by omega) (by omega)
  rw [throwDice_of_not_isDoubled source hfirst,
    throwDice_of_not_isDoubled source hsecond,
    throwDice_of_not_isDoubled source hjoined]
  dsimp only
  rw [hcount, repeated_add]

/-- Thrown as one term, the dice of two terms are those of the first and then
those of the second. -/
theorem DiceTerm.throw_joined (source : Source σ) (hm : 1 ≤ m) (hn : 1 ≤ n)
    (hfirst : ¬ DiceTerm.IsDoubled mode ⟨m, sides, sign⟩)
    (hsecond : ¬ DiceTerm.IsDoubled mode ⟨n, sides, sign⟩) :
    DiceTerm.throw source mode ⟨m + n, sides, sign⟩ = do
      let first ← DiceTerm.throw source mode ⟨m, sides, sign⟩
      let second ← DiceTerm.throw source mode ⟨n, sides, sign⟩
      return first.joined second := by
  have hrolls (front back : List ℤ) :
      Detail.ofRolls ⟨m + n, sides, sign⟩ (front ++ back) =
        (Detail.ofRolls ⟨m, sides, sign⟩ front).joined
          (Detail.ofRolls ⟨n, sides, sign⟩ back) := by
    have hsubtotal : sign * Number.sum (front ++ back) =
        sign * Number.sum front + sign * Number.sum back := by
      rw [Number.sum_append, mul_add]
    exact congrArg (Detail.mk ⟨m + n, sides, sign⟩ (front ++ back)) hsubtotal
  unfold DiceTerm.throw
  rw [throwDice_joined source hm hn hfirst hsecond]
  simp only [map_bind, bind_map_left, map_pure, hrolls]

theorem DiceTerm.throw_joined_of_ok {source : Source σ} (hm : 1 ≤ m)
    (hn : 1 ≤ n) (hm_plain : ¬ DiceTerm.IsDoubled mode ⟨m, sides, sign⟩)
    (hn_plain : ¬ DiceTerm.IsDoubled mode ⟨n, sides, sign⟩)
    {feed middle after : Feed σ} {first second : Detail}
    (hfirst : DiceTerm.throw source mode ⟨m, sides, sign⟩ feed =
      .ok first middle)
    (hsecond : DiceTerm.throw source mode ⟨n, sides, sign⟩ middle =
      .ok second after) :
    DiceTerm.throw source mode ⟨m + n, sides, sign⟩ feed =
      .ok (first.joined second) after := by
  rw [throw_joined source hm hn hm_plain hn_plain, bind_of_ok hfirst,
    bind_of_ok hsecond]
  rfl

/-- Where a split cannot be seen, neither part is doubled. -/
theorem DiceTerm.not_isDoubled_of_unseen {count : ℤ}
    (hunseen : mode = .plain ∨ sides ≠ 20 ∨ (2 ≤ m ∧ 2 ≤ n))
    (hcount : count = m ∨ count = n) :
    ¬ DiceTerm.IsDoubled mode ⟨count, sides, sign⟩ := by
  rintro ⟨hmode, htwenty, hone⟩
  dsimp only at htwenty hone
  rcases hunseen with hplain | hsides | hcounts
  · exact hmode hplain
  · exact hsides htwenty
  · omega

end

/-! ## Terms within an expression -/

theorem DiceTerm.exists_ok_throw {source : Source σ}
    (hsource : source.AlwaysAnswers) (mode : Mode) (term : DiceTerm)
    (feed : Feed σ) :
    ∃ detail after, term.throw source mode feed = .ok detail after :=
  (term.follows_throw source mode).exists_ok_of_answers
    (fun request _ => hsource request) feed

theorem DiceTerm.term_of_throw_eq_ok {source : Source σ} {mode : Mode}
    {term : DiceTerm} {feed after : Feed σ} {detail : Detail}
    (hdetail : term.throw source mode feed = .ok detail after) :
    detail.term = term := by
  obtain ⟨rolls, -, hrolls⟩ := map_eq_ok_iff.mp hdetail
  rw [← hrolls]
  rfl

namespace Expression

variable {source : Source σ} {mode : Mode} {feed middle after : Feed σ}

theorem map_term_of_throw_eq_ok {expr : Expression} {roll : Roll}
    (hroll : expr.throw source mode feed = .ok roll after) :
    roll.details.map Detail.term = expr.dice := by
  obtain ⟨-, houtcome⟩ := exists_answers_of_throw_eq_ok hroll
  rw [houtcome]
  exact expr.map_term_details mode _

theorem size_requests_of_throw_eq_ok {expr : Expression} {roll : Roll}
    (hroll : expr.throw source mode feed = .ok roll after) :
    after.requests.size = feed.requests.size + (expr.plan mode).length := by
  have hrequests := (expr.follows_throw source mode).requests_of_eq_ok hroll
  rw [hrequests, Array.size_append]
  rfl

theorem throw_cons (source : Source σ) (mode : Mode) (term : DiceTerm)
    (terms : List DiceTerm) (modifiers : List Modifier) :
    throw source mode ⟨term :: terms, modifiers⟩ = do
      let first ← term.throw source mode
      let rest ← throw source mode ⟨terms, modifiers⟩
      return Roll.ofDetails (first :: rest.details) rest.flatTotal := by
  have hflat : flatTotal ⟨term :: terms, modifiers⟩ =
      flatTotal ⟨terms, modifiers⟩ := rfl
  unfold throw
  rw [List.mapM_cons, hflat]
  simp only [bind_assoc, pure_bind]
  rfl

theorem throw_cons_of_ok {term : DiceTerm} {terms : List DiceTerm}
    {modifiers : List Modifier} {first : Detail} {rest : Roll}
    (hfirst : term.throw source mode feed = .ok first middle)
    (hrest : throw source mode ⟨terms, modifiers⟩ middle = .ok rest after) :
    throw source mode ⟨term :: terms, modifiers⟩ feed =
      .ok (Roll.ofDetails (first :: rest.details) rest.flatTotal) after := by
  rw [throw_cons, bind_of_ok hfirst, bind_of_ok hrest]
  rfl

end Expression

/-! ## Split and whole -/

section

variable {mode : Mode} {m n sides sign : ℤ}

theorem Roll.total_joined (first second : Detail) (back : List Detail)
    (flatTotal : ℤ) :
    (Roll.ofDetails (first.joined second :: back) flatTotal).total =
      (Roll.ofDetails (first :: second :: back) flatTotal).total := by
  have hsubtotal : (first.joined second).subtotal =
      first.subtotal + second.subtotal := rfl
  simp only [Roll.ofDetails, List.map_cons, Number.sum_cons, hsubtotal]
  omega

theorem DiceTerm.length_requests_lt_of_lone (sign : ℤ) (hm : 1 ≤ m)
    (hn : 1 ≤ n) (hmode : mode ≠ .plain) (hsides : sides = 20)
    (hlone : m = 1 ∨ n = 1) :
    (DiceTerm.requests mode ⟨m + n, sides, sign⟩).length <
      (DiceTerm.requests mode ⟨m, sides, sign⟩).length +
        (DiceTerm.requests mode ⟨n, sides, sign⟩).length := by
  have hdoubled (count : ℤ) :
      DiceTerm.IsDoubled mode ⟨count, sides, sign⟩ ↔ count = 1 := by
    simp [IsDoubled, hmode, hsides]
  simp only [length_requests, hdoubled]
  split_ifs <;> omega

theorem Expression.length_plan_lt_of_lone (sign : ℤ) (hm : 1 ≤ m)
    (hn : 1 ≤ n) (hmode : mode ≠ .plain) (hsides : sides = 20)
    (hlone : m = 1 ∨ n = 1) (before after : List DiceTerm)
    (modifiers : List Modifier) :
    (plan mode
        ⟨before ++ ⟨m + n, sides, sign⟩ :: after, modifiers⟩).length <
      (plan mode
        ⟨before ++ ⟨m, sides, sign⟩ :: ⟨n, sides, sign⟩ :: after,
          modifiers⟩).length := by
  have hterms :=
    DiceTerm.length_requests_lt_of_lone sign hm hn hmode hsides hlone
  simp only [plan, List.flatMap_append, List.flatMap_cons, List.length_append]
  omega

theorem Expression.size_requests_lt_of_seen {source : Source σ} (hm : 1 ≤ m)
    (hn : 1 ≤ n) (hseen : ¬ (mode = .plain ∨ sides ≠ 20 ∨ (2 ≤ m ∧ 2 ≤ n)))
    {before after : List DiceTerm} {modifiers : List Modifier}
    {feed last final : Feed σ} {roll other : Roll}
    (hsplit : throw source mode
        ⟨before ++ ⟨m, sides, sign⟩ :: ⟨n, sides, sign⟩ :: after, modifiers⟩
        feed = .ok roll last)
    (hwhole : throw source mode
        ⟨before ++ ⟨m + n, sides, sign⟩ :: after, modifiers⟩ feed =
      .ok other final) :
    final.requests.size < last.requests.size := by
  simp only [not_or, not_and_or, not_not] at hseen
  obtain ⟨hmode, hsides, hlone⟩ := hseen
  have hplan := length_plan_lt_of_lone sign hm hn hmode hsides (by omega)
    before after modifiers
  rw [size_requests_of_throw_eq_ok hsplit, size_requests_of_throw_eq_ok hwhole]
  exact Nat.add_lt_add_left hplan _

end

/-- A term may be split into two neighbouring terms with the same sides and
sign.  If no mode doubles a die, or the dice do not have twenty sides, or both
parts have two dice at least, then the split expression and the whole one make
the same requests and have the same totals, and their details are the same but
for the two of the parts, which are one detail of the whole with the rolls of
the first before those of the second.  In all other cases the split expression
makes more requests than the whole one. -/
theorem split_term_rolls_as_whole {source : Source σ}
    (hsource : source.AlwaysAnswers) (mode : Mode) {m n : ℤ} (hm : 1 ≤ m)
    (hn : 1 ≤ n) (sides sign : ℤ) (before after : List DiceTerm)
    (modifiers : List Modifier) (feed : Feed σ) :
    let split : Expression :=
      ⟨before ++ ⟨m, sides, sign⟩ :: ⟨n, sides, sign⟩ :: after, modifiers⟩
    let whole : Expression :=
      ⟨before ++ ⟨m + n, sides, sign⟩ :: after, modifiers⟩
    ∃ roll last other final,
      split.roll source mode.name feed = .ok roll last ∧
      whole.roll source mode.name feed = .ok other final ∧
      (mode = .plain ∨ sides ≠ 20 ∨ (2 ≤ m ∧ 2 ≤ n) →
        final = last ∧ other.flatTotal = roll.flatTotal ∧
        other.total = roll.total ∧
        ∃ front first second back,
          front.map Detail.term = before ∧
          first.term = ⟨m, sides, sign⟩ ∧ second.term = ⟨n, sides, sign⟩ ∧
          back.map Detail.term = after ∧
          roll.details = front ++ first :: second :: back ∧
          other.details = front ++
            ⟨⟨m + n, sides, sign⟩, first.rolls ++ second.rolls,
              first.subtotal + second.subtotal⟩ :: back) ∧
      (¬ (mode = .plain ∨ sides ≠ 20 ∨ (2 ≤ m ∧ 2 ≤ n)) →
        final.requests.size < last.requests.size) := by
  intro split whole
  simp only [Expression.roll_mode_name]
  by_cases hunseen : mode = .plain ∨ sides ≠ 20 ∨ (2 ≤ m ∧ 2 ≤ n)
  · obtain ⟨front, start, hfront⟩ :=
      Expression.exists_ok_throw hsource mode ⟨before, []⟩ feed
    obtain ⟨first, middle, hfirst⟩ :=
      DiceTerm.exists_ok_throw hsource mode ⟨m, sides, sign⟩ start
    obtain ⟨second, next, hsecond⟩ :=
      DiceTerm.exists_ok_throw hsource mode ⟨n, sides, sign⟩ middle
    obtain ⟨back, last, hback⟩ :=
      Expression.exists_ok_throw hsource mode ⟨after, modifiers⟩ next
    -- The whole term starts and ends with the feeds of the two parts, so the
    -- terms around it are rolled alike in both expressions.
    have hjoined := DiceTerm.throw_joined_of_ok hm hn
      (DiceTerm.not_isDoubled_of_unseen hunseen (.inl rfl))
      (DiceTerm.not_isDoubled_of_unseen hunseen (.inr rfl)) hfirst hsecond
    have hsplit := Expression.throw_append_of_ok hfront
      (Expression.throw_cons_of_ok hfirst
        (Expression.throw_cons_of_ok hsecond hback))
    have hwhole := Expression.throw_append_of_ok hfront
      (Expression.throw_cons_of_ok hjoined hback)
    refine ⟨_, last, _, last, hsplit, hwhole, ?_,
      fun hseen => absurd hunseen hseen⟩
    intro _
    have htotal := Roll.total_joined first second back.details back.flatTotal
    have hm_term := DiceTerm.term_of_throw_eq_ok hfirst
    have hn_term := DiceTerm.term_of_throw_eq_ok hsecond
    refine ⟨rfl, rfl, congrArg (front.total + ·) htotal, front.details, first,
      second, back.details, Expression.map_term_of_throw_eq_ok hfront,
      hm_term, hn_term, Expression.map_term_of_throw_eq_ok hback, rfl, ?_⟩
    rw [← Detail.joined_eq hm_term hn_term]
    rfl
  · obtain ⟨roll, last, hsplit⟩ := split.exists_ok_throw hsource mode feed
    obtain ⟨other, final, hwhole⟩ := whole.exists_ok_throw hsource mode feed
    exact ⟨roll, last, other, final, hsplit, hwhole,
      fun hplain => absurd hplain hunseen,
      fun hseen => Expression.size_requests_lt_of_seen hm hn hseen hsplit hwhole⟩

theorem split_term_rolls_as_whole_twenty_sided :
    let source := Source.linear 3 7
    let advantage := Mode.advantage.name
    source.AlwaysAnswers ∧ (1 : ℤ) ≤ 1 ∧ (1 : ℤ) ≤ 2 ∧ (1 : ℤ) ≤ 3 ∧
      (∃ roll other last,
        Expression.roll source
            ⟨[⟨1, 20, 1⟩, ⟨2, 20, -1⟩, ⟨3, 20, -1⟩, ⟨1, 6, 1⟩], [⟨4, 1⟩]⟩
            advantage (.initial 0) = .ok roll last ∧
        Expression.roll source
            ⟨[⟨1, 20, 1⟩, ⟨5, 20, -1⟩, ⟨1, 6, 1⟩], [⟨4, 1⟩]⟩
            advantage (.initial 0) = .ok other last ∧
        other.total = roll.total ∧
        roll.details.map Detail.rolls = [[11], [18, 5], [12, 19, 6], [5]] ∧
        other.details.map Detail.rolls = [[11], [18, 5, 12, 19, 6], [5]]) ∧
      ∃ roll last other final,
        Expression.roll source ⟨[⟨1, 20, 1⟩, ⟨2, 20, 1⟩], []⟩ advantage
          (.initial 0) = .ok roll last ∧
        Expression.roll source ⟨[⟨3, 20, 1⟩], []⟩ advantage (.initial 0) =
          .ok other final ∧
        final.requests.size < last.requests.size := by
  intro source advantage
  have hsource : source.AlwaysAnswers := Source.linear_alwaysAnswers 3 7
  have hone : (1 : ℤ) ≤ 1 := by decide
  have htwo : (1 : ℤ) ≤ 2 := by decide
  have hthree : (1 : ℤ) ≤ 3 := by decide
  obtain ⟨roll, last, other, final, hroll, hother, hunseen, -⟩ :=
    split_term_rolls_as_whole hsource .advantage htwo hthree 20 (-1)
      [⟨1, 20, 1⟩] [⟨1, 6, 1⟩] [⟨4, 1⟩] (.initial 0)
  obtain ⟨lone, finish, pair, stop, hlone, hpair, -, hseen⟩ :=
    split_term_rolls_as_whole hsource .advantage hone htwo 20 1 [] [] []
      (.initial 0)
  refine ⟨hsource, hone, htwo, hthree, ?_,
    lone, finish, pair, stop, hlone, hpair, hseen (by decide)⟩
  obtain ⟨hsame, -, htotal, -⟩ := hunseen (by decide)
  subst hsame
  cases hroll
  cases hother
  exact ⟨_, _, _, rfl, rfl, htotal, rfl, rfl⟩

end TabletopDice
