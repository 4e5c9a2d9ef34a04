import TabletopDice.Proofs.Contrast
import TabletopDice.Proofs.Join

/-!
# Adding and negating expressions

Expressions are added by writing the terms of the second after those of the
first, and negated by turning the sign of every term.  Rolling respects both:
a sum is rolled by rolling the one and then the other, and a negated expression
makes the same draws, records the same rolls and negates what they amount to.
The sign of a twenty-sided die has no part in which of its two rolls is kept.
-/

namespace TabletopDice

open Rolling

variable {σ : Type}

/-! ## Sums -/

instance : Append Roll where
  append first second :=
    ⟨first.details ++ second.details, first.flatTotal + second.flatTotal,
      first.total + second.total⟩

theorem Expression.flatTotal_append (x y : Expression) :
    (x ++ y).flatTotal = x.flatTotal + y.flatTotal := by
  change Number.sum ((x.modifiers ++ y.modifiers).map Modifier.signed) = _
  rw [List.map_append, Number.sum_append]
  rfl

theorem Roll.ofDetails_append (front back : List Detail) (first second : ℤ) :
    Roll.ofDetails (front ++ back) (first + second) =
      Roll.ofDetails front first ++ Roll.ofDetails back second := by
  have htotal : Number.sum ((front ++ back).map Detail.subtotal) +
      (first + second) =
        (Number.sum (front.map Detail.subtotal) + first) +
          (Number.sum (back.map Detail.subtotal) + second) := by
    rw [List.map_append, Number.sum_append]
    omega
  exact congrArg (Roll.mk (front ++ back) (first + second)) htotal

/-- A sum is rolled by rolling the one expression and then the other. -/
theorem Expression.throw_append (source : Source σ) (mode : Mode)
    (x y : Expression) :
    (x ++ y).throw source mode = do
      let first ← x.throw source mode
      let second ← y.throw source mode
      return first ++ second := by
  have hdice : (x ++ y).dice = x.dice ++ y.dice := rfl
  unfold throw
  rw [hdice, flatTotal_append, List.mapM_append]
  simp only [bind_assoc, pure_bind, Roll.ofDetails_append]

/-! ## Negatives -/

instance : Neg DiceTerm where
  neg term := { term with sign := -term.sign }

instance : Neg Modifier where
  neg modifier := { modifier with sign := -modifier.sign }

instance : Neg Expression where
  neg x := ⟨x.dice.map Neg.neg, x.modifiers.map Neg.neg⟩

instance : Neg Detail where
  neg detail := ⟨-detail.term, detail.rolls, -detail.subtotal⟩

instance : Neg Roll where
  neg roll := ⟨roll.details.map Neg.neg, -roll.flatTotal, -roll.total⟩

theorem Number.sum_neg (values : List ℤ) :
    Number.sum (values.map Neg.neg) = -Number.sum values :=
  (List.sum_neg values).symm

theorem Expression.flatTotal_neg (x : Expression) :
    (-x).flatTotal = -x.flatTotal := by
  have hsigned : (x.modifiers.map Neg.neg).map Modifier.signed =
      (x.modifiers.map Modifier.signed).map Neg.neg := by
    rw [List.map_map, List.map_map]
    apply List.map_congr_left
    intro modifier _
    exact neg_mul modifier.sign modifier.value
  change Number.sum ((x.modifiers.map Neg.neg).map Modifier.signed) = _
  rw [hsigned, Number.sum_neg]
  rfl

theorem Detail.ofRolls_neg (term : DiceTerm) (rolls : List ℤ) :
    Detail.ofRolls (-term) rolls = -Detail.ofRolls term rolls := by
  have hsubtotal : -term.sign * Number.sum rolls =
      -(term.sign * Number.sum rolls) := neg_mul _ _
  exact congrArg (Detail.mk (-term) rolls) hsubtotal

theorem Roll.ofDetails_neg (details : List Detail) (flatTotal : ℤ) :
    Roll.ofDetails (details.map Neg.neg) (-flatTotal) =
      -Roll.ofDetails details flatTotal := by
  have htotal :
      Number.sum ((details.map Neg.neg).map Detail.subtotal) + -flatTotal =
        -(Number.sum (details.map Detail.subtotal) + flatTotal) := by
    have hsubtotals : (details.map Neg.neg).map Detail.subtotal =
        (details.map Detail.subtotal).map Neg.neg := by
      rw [List.map_map, List.map_map]
      rfl
    rw [hsubtotals, Number.sum_neg]
    omega
  exact congrArg (Roll.mk (details.map Neg.neg) (-flatTotal)) htotal

/-- Which dice a term throws does not depend on its sign. -/
theorem DiceTerm.throw_neg (source : Source σ) (mode : Mode)
    (term : DiceTerm) :
    (-term).throw source mode = Neg.neg <$> term.throw source mode := by
  have hdice : (-term).throwDice source mode = term.throwDice source mode :=
    rfl
  unfold DiceTerm.throw
  rw [hdice, Functor.map_map, funext (Detail.ofRolls_neg term)]

theorem Rolling.mapM_map_of_comm {ι κ α β : Type} {f : ι → κ} {g : α → β}
    {action : ι → Rolling σ α} {other : κ → Rolling σ β}
    (hcomm : ∀ i, other (f i) = g <$> action i) (xs : List ι) :
    (xs.map f).mapM other = List.map g <$> xs.mapM action := by
  induction xs with
  | nil => rfl
  | cons x xs ih =>
      rw [List.map_cons, List.mapM_cons, List.mapM_cons, hcomm, ih]
      simp only [map_bind, bind_map_left, map_pure, List.map_cons]

/-- A negated expression is rolled like the expression itself, and the roll is
negated. -/
theorem Expression.throw_neg (source : Source σ) (mode : Mode)
    (x : Expression) :
    (-x).throw source mode = Neg.neg <$> x.throw source mode := by
  have hdice : (-x).dice = x.dice.map Neg.neg := rfl
  unfold throw
  rw [hdice, flatTotal_neg,
    mapM_map_of_comm (DiceTerm.throw_neg source mode) x.dice]
  simp only [map_bind, bind_map_left, map_pure, Roll.ofDetails_neg]

/-! ## Rolls of sums and negatives -/

namespace Expression

variable {source : Source σ} {mode : Mode} {x y : Expression}
  {feed middle after : Feed σ} {first second : Roll}

theorem throw_append_of_ok (hfirst : x.throw source mode feed = .ok first middle)
    (hsecond : y.throw source mode middle = .ok second after) :
    (x ++ y).throw source mode feed = .ok (first ++ second) after := by
  rw [throw_append, bind_of_ok hfirst, bind_of_ok hsecond]
  rfl

theorem throw_neg_of_ok (hfirst : x.throw source mode feed = .ok first after) :
    (-x).throw source mode feed = .ok (-first) after := by
  rw [throw_neg]
  exact map_of_ok hfirst Neg.neg

end Expression

/-! ## A single twenty-sided die -/

section

variable {mode : Mode} {choose : ℤ → ℤ → ℤ} {term : DiceTerm}

theorem DiceTerm.requests_of_lone (hchoose : mode.choice? = some choose)
    (hterm : term.sides = 20 ∧ term.count = 1) :
    term.requests mode = [⟨1, 20⟩, ⟨1, 20⟩] := by
  have hmode := Mode.ne_plain_of_choice?_eq_some hchoose
  exact if_pos ⟨hmode, hterm⟩

theorem Expression.outcome_of_lone (hchoose : mode.choice? = some choose)
    (hterm : term.sides = 20 ∧ term.count = 1) (first second : ℤ) :
    outcome mode ⟨[term], []⟩ [first, second] =
      ⟨[⟨term, [choose first second], term.sign * choose first second⟩], 0,
        term.sign * choose first second⟩ := by
  have hdetails : details mode ⟨[term], []⟩ [first, second] =
      [⟨term, [choose first second], term.sign * choose first second⟩] := by
    simp [details, dealt, DiceTerm.requests_of_lone hchoose hterm,
      DiceTerm.detail_of_lone hchoose hterm]
  unfold outcome
  rw [hdetails]
  simp

/-- Which of its two rolls a twenty-sided die keeps is settled before its sign
comes into play. -/
theorem Expression.throw_lone {source : Source σ}
    (hsource : source.AlwaysAnswers) (hchoose : mode.choice? = some choose)
    (hterm : term.sides = 20 ∧ term.count = 1) (feed : Feed σ) :
    ∃ first second after,
      source.ask [⟨1, 20⟩, ⟨1, 20⟩] feed.state =
        ⟨[first, second], none, after.state⟩ ∧
      throw source mode ⟨[term], []⟩ feed =
        .ok ⟨[⟨term, [choose first second], term.sign * choose first second⟩],
            0, term.sign * choose first second⟩ after := by
  have hplan : plan mode ⟨[term], []⟩ = [⟨1, 20⟩, ⟨1, 20⟩] := by
    simp [plan, DiceTerm.requests_of_lone hchoose hterm]
  have hfollows := follows_throw source mode ⟨[term], []⟩
  rw [hplan] at hfollows
  have hgranted : (source.ask [⟨1, 20⟩, ⟨1, 20⟩] feed.state).refusal = none :=
    Source.refusal_ask_of_answers (fun request _ => hsource request) feed.state
  have hthrow := hfollows.eq_ok_of_granted hgranted
  obtain ⟨first, second, hanswers⟩ :=
    List.length_eq_two.mp (source.length_answers_of_granted hgranted)
  rw [hanswers, outcome_of_lone hchoose hterm] at hthrow
  refine ⟨first, second, _, ?_, hthrow⟩
  rw [← hanswers, ← hgranted]
  rfl

end

/-! ## The whole -/

/-- Against a source that always answers, a sum of two expressions is rolled
like the first and then the second: the requests, the resolutions and the state
of the source are the same, the details stand one after the other, and the
totals are added.  An expression with all signs turned is rolled with the same
requests and the same rolls, and what they amount to is negated.  In the modes
that roll a lone twenty-sided die twice, the roll that is kept does not depend
on the sign of the die. -/
theorem roll_additive_and_odd {source : Source σ}
    (hsource : source.AlwaysAnswers) (mode : Mode) (feed : Feed σ) :
    (∀ x y : Expression, ∃ first middle second after,
      x.roll source mode.name feed = .ok first middle ∧
      y.roll source mode.name middle = .ok second after ∧
      Expression.roll source ⟨x.dice ++ y.dice, x.modifiers ++ y.modifiers⟩
          mode.name feed =
        .ok ⟨first.details ++ second.details,
          first.flatTotal + second.flatTotal, first.total + second.total⟩
          after) ∧
    (∀ x : Expression, ∃ roll after,
      x.roll source mode.name feed = .ok roll after ∧
      Expression.roll source
          ⟨x.dice.map fun term => ⟨term.count, term.sides, -term.sign⟩,
            x.modifiers.map fun modifier =>
              ⟨modifier.value, -modifier.sign⟩⟩ mode.name feed =
        .ok ⟨roll.details.map fun detail =>
            ⟨⟨detail.term.count, detail.term.sides, -detail.term.sign⟩,
              detail.rolls, -detail.subtotal⟩,
          -roll.flatTotal, -roll.total⟩ after) ∧
    ∀ choose sign, mode.choice? = some choose → ∃ first second after,
      source.ask [⟨1, 20⟩, ⟨1, 20⟩] feed.state =
        ⟨[first, second], none, after.state⟩ ∧
      Expression.roll source ⟨[⟨1, 20, sign⟩], []⟩ mode.name feed =
        .ok ⟨[⟨⟨1, 20, sign⟩, [choose first second],
            sign * choose first second⟩], 0, sign * choose first second⟩
          after := by
  simp only [Expression.roll_mode_name]
  refine ⟨?_, ?_, ?_⟩
  · intro x y
    obtain ⟨first, middle, hfirst⟩ := x.exists_ok_throw hsource mode feed
    obtain ⟨second, after, hsecond⟩ := y.exists_ok_throw hsource mode middle
    exact ⟨first, middle, second, after, hfirst, hsecond,
      Expression.throw_append_of_ok hfirst hsecond⟩
  · intro x
    obtain ⟨roll, after, hroll⟩ := x.exists_ok_throw hsource mode feed
    exact ⟨roll, after, hroll, Expression.throw_neg_of_ok hroll⟩
  · intro choose sign hchoose
    exact Expression.throw_lone hsource hchoose ⟨rfl, rfl⟩ feed

theorem roll_additive_and_odd_subtracted_d20 :
    let source := Source.linear 3 7
    let lost : Expression := ⟨[⟨1, 20, -1⟩], [⟨4, 1⟩]⟩
    let pair : Expression := ⟨[⟨2, 6, 1⟩], [⟨1, -1⟩]⟩
    source.AlwaysAnswers ∧
      (∃ middle after,
        lost.roll source Mode.advantage.name (.initial 0) =
          .ok ⟨[⟨⟨1, 20, -1⟩, [11], -11⟩], 4, -7⟩ middle ∧
        pair.roll source Mode.advantage.name middle =
          .ok ⟨[⟨⟨2, 6, 1⟩, [6, 1], 7⟩], -1, 6⟩ after ∧
        Expression.roll source
            ⟨[⟨1, 20, -1⟩, ⟨2, 6, 1⟩], [⟨4, 1⟩, ⟨1, -1⟩]⟩
            Mode.advantage.name (.initial 0) =
          .ok ⟨[⟨⟨1, 20, -1⟩, [11], -11⟩, ⟨⟨2, 6, 1⟩, [6, 1], 7⟩], 3, -1⟩
            after) ∧
      ∃ after,
        Expression.roll source ⟨[⟨1, 20, 1⟩], [⟨4, -1⟩]⟩ Mode.advantage.name
            (.initial 0) =
          .ok ⟨[⟨⟨1, 20, 1⟩, [11], 11⟩], -4, 7⟩ after := by
  intro source lost pair
  have hsource : source.AlwaysAnswers := Source.linear_alwaysAnswers 3 7
  obtain ⟨hsum, hnegative, -⟩ :=
    roll_additive_and_odd hsource .advantage (.initial 0)
  refine ⟨hsource, ?_, ?_⟩
  · obtain ⟨first, middle, second, after, hfirst, hsecond, hboth⟩ :=
      hsum lost pair
    cases hfirst
    cases hsecond
    exact ⟨_, _, rfl, rfl, hboth⟩
  · obtain ⟨roll, after, hroll, hnegated⟩ := hnegative lost
    cases hroll
    exact ⟨_, hnegated⟩

end TabletopDice
