import TabletopDice.Proofs.Calls

/-!
# Advantage against disadvantage

Under advantage and under disadvantage an expression makes the same requests,
so a source answers both alike.  The two rolls then differ in the lone
twenty-sided dice only, of whose two draws the one keeps the better and the
other the worse: their totals differ by the gap between the two draws, as often
as there is such a die and with its sign.  An expression without such a die is
rolled in the same way in all modes.
-/

namespace TabletopDice

open Rolling

variable {σ : Type}

/-! ## The same draws in two modes -/

/-- A lone twenty-sided die and the two draws made for it. -/
structure TwoDraws where
  term : DiceTerm
  first : ℤ
  second : ℤ

/-- By how much keeping the better of the two draws exceeds keeping the worse. -/
def TwoDraws.gap (pair : TwoDraws) : ℤ :=
  pair.term.sign * |pair.first - pair.second|

/-- The details of some terms under advantage and under disadvantage, both made
of the same draws, which the terms take in order.  The lone twenty-sided dice
are listed with their draws. -/
inductive Contrast :
    List DiceTerm → List ℤ → List Detail → List Detail → List TwoDraws → Prop
  | nil : Contrast [] [] [] [] []
  | lone {term : DiceTerm} {first second : ℤ} {terms : List DiceTerm}
      {draws : List ℤ} {better worse : List Detail} {pairs : List TwoDraws}
      (hterm : term.sides = 20 ∧ term.count = 1)
      (hlater : Contrast terms draws better worse pairs) :
      Contrast (term :: terms) (first :: second :: draws)
        (⟨term, [max first second], term.sign * max first second⟩ :: better)
        (⟨term, [min first second], term.sign * min first second⟩ :: worse)
        (⟨term, first, second⟩ :: pairs)
  | alike {term : DiceTerm} {block : List ℤ} {terms : List DiceTerm}
      {draws : List ℤ} {better worse : List Detail} {pairs : List TwoDraws}
      (hterm : ¬ (term.sides = 20 ∧ term.count = 1))
      (hblock : block.length = term.count.toNat)
      (hlater : Contrast terms draws better worse pairs) :
      Contrast (term :: terms) (block ++ draws)
        (⟨term, block, term.sign * block.sum⟩ :: better)
        (⟨term, block, term.sign * block.sum⟩ :: worse) pairs

namespace Contrast

variable {terms : List DiceTerm} {draws : List ℤ} {better worse : List Detail}
  {pairs : List TwoDraws}

theorem sum_sub_sum (hcontrast : Contrast terms draws better worse pairs) :
    (better.map Detail.subtotal).sum - (worse.map Detail.subtotal).sum =
      (pairs.map TwoDraws.gap).sum := by
  induction hcontrast with
  | nil => rfl
  | @lone term first second terms draws better worse pairs hterm hlater ih =>
      have hgap : term.sign * max first second - term.sign * min first second =
          term.sign * |first - second| := by
        rw [← mul_sub, max_sub_min_eq_abs']
      simp only [List.map_cons, List.sum_cons, TwoDraws.gap]
      omega
  | alike hterm hblock hlater ih =>
      simp only [List.map_cons, List.sum_cons]
      omega

theorem sum_gap_nonneg (hcontrast : Contrast terms draws better worse pairs)
    (hsign : ∀ term ∈ terms, term.sides = 20 → term.count = 1 →
      0 ≤ term.sign) : 0 ≤ (pairs.map TwoDraws.gap).sum := by
  induction hcontrast with
  | nil => exact le_rfl
  | @lone term first second terms draws better worse pairs hterm hlater ih =>
      obtain ⟨hfirst, hrest⟩ := List.forall_mem_cons.mp hsign
      have hgap : 0 ≤ term.sign * |first - second| :=
        mul_nonneg (hfirst hterm.1 hterm.2) (abs_nonneg _)
      exact add_nonneg hgap (ih hrest)
  | alike hterm hblock hlater ih =>
      exact ih (List.forall_mem_cons.mp hsign).2

end Contrast

/-! ## Requests in the two modes -/

theorem DiceTerm.isDoubled_iff {mode : Mode} {term : DiceTerm}
    (hmode : mode ≠ .plain) :
    term.IsDoubled mode ↔ term.sides = 20 ∧ term.count = 1 :=
  and_iff_right hmode

theorem DiceTerm.requests_disadvantage (term : DiceTerm) :
    term.requests .disadvantage = term.requests .advantage := by
  have hadvantage : Mode.advantage ≠ .plain := by decide
  have hdisadvantage : Mode.disadvantage ≠ .plain := by decide
  unfold DiceTerm.requests
  simp only [isDoubled_iff hadvantage, isDoubled_iff hdisadvantage]

theorem Expression.plan_disadvantage (expr : Expression) :
    expr.plan .disadvantage = expr.plan .advantage := by
  unfold Expression.plan
  rw [funext DiceTerm.requests_disadvantage]

/-! ## Details in the two modes -/

theorem DiceTerm.detail_of_lone {mode : Mode} {choose : ℤ → ℤ → ℤ}
    (hchoose : mode.choice? = some choose) {term : DiceTerm}
    (hterm : term.sides = 20 ∧ term.count = 1) (first second : ℤ) :
    term.detail mode [first, second] =
      ⟨term, [choose first second], term.sign * choose first second⟩ := by
  have hmode := Mode.ne_plain_of_choice?_eq_some hchoose
  have hrecorded : term.recorded mode [first, second] =
      [choose first second] := by
    rw [DiceTerm.recorded, if_pos ((DiceTerm.isDoubled_iff hmode).mpr hterm),
      Mode.keep_pair hchoose]
  unfold DiceTerm.detail
  rw [hrecorded, List.sum_singleton]

theorem DiceTerm.detail_of_not_lone {term : DiceTerm}
    (hterm : ¬ (term.sides = 20 ∧ term.count = 1)) (mode : Mode)
    (block : List ℤ) :
    term.detail mode block = ⟨term, block, term.sign * block.sum⟩ := by
  have hrecorded : term.recorded mode block = block :=
    if_neg fun hdoubled => hterm hdoubled.2
  unfold DiceTerm.detail
  rw [hrecorded]

theorem exists_append_of_length_eq_add {α : Type} {xs : List α} {n m : ℕ}
    (hlength : xs.length = n + m) :
    ∃ first later, xs = first ++ later ∧ first.length = n ∧
      later.length = m := by
  refine ⟨xs.take n, xs.drop n, (List.take_append_drop n xs).symm, ?_, ?_⟩
  · rw [List.length_take]
    omega
  · rw [List.length_drop]
    omega

/-- The draws of some terms, dealt to them in blocks, make contrasting
details. -/
theorem exists_contrast (terms : List DiceTerm) {draws : List ℤ}
    (hdraws : draws.length =
      (terms.flatMap (DiceTerm.requests .advantage)).length) :
    ∃ pairs, Contrast terms draws
      (List.zipWith (DiceTerm.detail .advantage) terms
        (blocks (terms.map (DiceTerm.requests .advantage)) draws))
      (List.zipWith (DiceTerm.detail .disadvantage) terms
        (blocks (terms.map (DiceTerm.requests .advantage)) draws)) pairs := by
  induction terms generalizing draws with
  | nil =>
      obtain rfl := List.eq_nil_of_length_eq_zero hdraws
      exact ⟨[], .nil⟩
  | cons term terms ih =>
      rw [List.flatMap_cons, List.length_append] at hdraws
      obtain ⟨block, later, rfl, hblock, hlater⟩ :=
        exists_append_of_length_eq_add hdraws
      obtain ⟨pairs, hcontrast⟩ := ih hlater
      simp only [List.map_cons, blocks_cons, List.zipWith_cons_cons,
        List.take_left' hblock, List.drop_left' hblock]
      by_cases hterm : term.sides = 20 ∧ term.count = 1
      · have hrequests : term.requests .advantage = [⟨1, 20⟩, ⟨1, 20⟩] :=
          if_pos ((DiceTerm.isDoubled_iff (by decide)).mpr hterm)
        rw [hrequests] at hblock
        obtain ⟨first, second, rfl⟩ := List.length_eq_two.mp hblock
        have hmax : Mode.choice? .advantage = some max := rfl
        have hmin : Mode.choice? .disadvantage = some min := rfl
        rw [DiceTerm.detail_of_lone hmax hterm,
          DiceTerm.detail_of_lone hmin hterm]
        exact ⟨⟨term, first, second⟩ :: pairs, .lone hterm hcontrast⟩
      · have hrequests : term.requests .advantage =
            List.replicate term.count.toNat ⟨1, term.sides⟩ :=
          if_neg fun hdoubled => hterm hdoubled.2
        have hcount : block.length = term.count.toNat := by
          rw [hblock, hrequests, List.length_replicate]
        rw [DiceTerm.detail_of_not_lone hterm,
          DiceTerm.detail_of_not_lone hterm]
        exact ⟨pairs, .alike hterm hcount hcontrast⟩

theorem Expression.details_disadvantage (expr : Expression)
    (answers : List ℤ) :
    expr.details .disadvantage answers =
      List.zipWith (DiceTerm.detail .disadvantage) expr.dice
        (expr.dealt .advantage answers) := by
  unfold Expression.details Expression.dealt
  rw [funext DiceTerm.requests_disadvantage]

/-! ## Expressions without a lone twenty-sided die -/

theorem DiceTerm.throw_of_not_lone (source : Source σ) {term : DiceTerm}
    (hterm : ¬ (term.sides = 20 ∧ term.count = 1)) (mode : Mode) :
    term.throw source mode = term.throw source .plain := by
  have hdice (mode : Mode) : term.throwDice source mode =
      repeated term.count.toNat (draw source 1 term.sides) :=
    DiceTerm.throwDice_of_not_isDoubled source fun hdoubled =>
      hterm hdoubled.2
  unfold DiceTerm.throw
  rw [hdice mode, hdice .plain]

theorem Rolling.mapM_congr {α β : Type} {action other : α → Rolling σ β}
    {xs : List α} (hactions : ∀ x ∈ xs, action x = other x) :
    xs.mapM action = xs.mapM other := by
  induction xs with
  | nil => rfl
  | cons x xs ih =>
      obtain ⟨hfirst, hlater⟩ := List.forall_mem_cons.mp hactions
      rw [List.mapM_cons, List.mapM_cons, hfirst, ih hlater]

theorem Expression.throw_of_no_lone (source : Source σ) {expr : Expression}
    (hexpr : ∀ term ∈ expr.dice, ¬ (term.sides = 20 ∧ term.count = 1))
    (mode : Mode) : expr.throw source mode = expr.throw source .plain := by
  have hdice : expr.dice.mapM (DiceTerm.throw source mode) =
      expr.dice.mapM (DiceTerm.throw source .plain) :=
    mapM_congr fun term hterm =>
      DiceTerm.throw_of_not_lone source (hexpr term hterm) mode
  unfold Expression.throw
  rw [hdice]

theorem Expression.roll_of_no_lone (source : Source σ) {expr : Expression}
    (hexpr : ∀ term ∈ expr.dice, ¬ (term.sides = 20 ∧ term.count = 1))
    (mode : Mode) :
    expr.roll source mode.name = expr.roll source "none" := by
  rw [expr.roll_mode_name, expr.throw_of_no_lone source hexpr]
  exact (expr.roll_mode_name source .plain).symm

/-! ## The two rolls -/

/-- Dealt the same answers, the two rolls differ by the gaps. -/
theorem Expression.exists_contrast_outcome (expr : Expression)
    {answers : List ℤ}
    (hanswers : answers.length = (expr.plan .advantage).length) :
    ∃ pairs,
      Contrast expr.dice answers (expr.outcome .advantage answers).details
        (expr.outcome .disadvantage answers).details pairs ∧
      (expr.outcome .advantage answers).total -
          (expr.outcome .disadvantage answers).total =
        (pairs.map TwoDraws.gap).sum := by
  obtain ⟨pairs, hcontrast⟩ := exists_contrast expr.dice hanswers
  change Contrast expr.dice _ (expr.details .advantage _)
    (List.zipWith _ expr.dice (expr.dealt .advantage _)) pairs at hcontrast
  rw [← expr.details_disadvantage] at hcontrast
  exact ⟨pairs, hcontrast,
    (add_sub_add_left_eq_sub _ _ _).trans hcontrast.sum_sub_sum⟩

/-- Under advantage and under disadvantage an expression makes the same
requests, and the source refuses both rolls or neither; one that always answers
refuses neither.  Their details are then made of the same draws and differ in
the lone twenty-sided dice only, so that the totals differ by the gaps between
the two draws of each, and none of these dice being subtracted, advantage is no
worse.  Without such a die all modes roll alike. -/
theorem advantage_exceeds_by_gaps (source : Source σ) (expr : Expression)
    (feed : Feed σ) :
    let better := outcome (expr.roll source "advantage") feed
    let worse := outcome (expr.roll source "disadvantage") feed
    better.2.requests = worse.2.requests ∧ better.2.state = worse.2.state ∧
    ((¬ source.AlwaysAnswers ∧
        ∃ failure, better.1 = .error failure ∧ worse.1 = .error failure) ∨
      ∃ up down requests draws pairs,
        better.1 = .ok up ∧ worse.1 = .ok down ∧
        better.2.requests = feed.requests ++ requests.toArray ∧
        source.ask requests feed.state = ⟨draws, none, better.2.state⟩ ∧
        Contrast expr.dice draws up.details down.details pairs ∧
        up.flatTotal = down.flatTotal ∧
        up.total - down.total = (pairs.map TwoDraws.gap).sum ∧
        ((∀ term ∈ expr.dice, term.sides = 20 → term.count = 1 →
            0 ≤ term.sign) → down.total ≤ up.total)) ∧
    ((∀ term ∈ expr.dice, ¬ (term.sides = 20 ∧ term.count = 1)) →
      ∀ mode : Mode, expr.roll source mode.name = expr.roll source "none") := by
  have hup := (expr.follows_throw source .advantage).run feed
  have hdown := (expr.follows_throw source .disadvantage).run feed
  rw [← expr.roll_mode_name source .advantage] at hup
  rw [← expr.roll_mode_name source .disadvantage, expr.plan_disadvantage]
    at hdown
  dsimp only at hup hdown
  cases hrefusal : (source.ask (expr.plan .advantage) feed.state).refusal with
  | some failure =>
      rw [hrefusal] at hup hdown
      simp only [Mode.name] at hup hdown
      have hrefuses : ¬ source.AlwaysAnswers := by
        intro hsource
        obtain ⟨roll, after, hroll⟩ :=
          expr.exists_ok_throw hsource .advantage feed
        rw [← expr.roll_mode_name, Mode.name, hup] at hroll
        cases hroll
      rw [outcome_of_error hup, outcome_of_error hdown]
      exact ⟨rfl, rfl, .inl ⟨hrefuses, _, rfl, rfl⟩,
        expr.roll_of_no_lone source⟩
  | none =>
      rw [hrefusal] at hup hdown
      simp only [Mode.name] at hup hdown
      have hlength := source.length_answers_of_granted hrefusal
      obtain ⟨pairs, hcontrast, htotal⟩ :=
        expr.exists_contrast_outcome hlength
      rw [outcome_of_ok hup, outcome_of_ok hdown]
      refine ⟨rfl, rfl, .inr ⟨_, _, expr.plan .advantage, _, pairs, rfl, rfl,
        ?_, ?_, hcontrast, rfl, htotal, ?_⟩, expr.roll_of_no_lone source⟩
      · have hall : (expr.plan .advantage).take
            ((expr.plan .advantage).length + 1) = expr.plan .advantage :=
          List.take_of_length_le (Nat.le_succ _)
        simp only [Feed.after, hlength, hall]
      · simp only [Feed.after, ← hrefusal]
      · intro hsign
        have hnonneg := hcontrast.sum_gap_nonneg hsign
        omega

theorem advantage_exceeds_by_gaps_added_d20 :
    let lone : Expression := ⟨[⟨1, 20, 1⟩, ⟨2, 20, -1⟩], [⟨5, 1⟩]⟩
    let pair : Expression := ⟨[⟨2, 20, -1⟩], [⟨5, 1⟩]⟩
    let better := outcome (lone.roll Source.script "advantage")
      (.initial [3, 17, 4, 9])
    let worse := outcome (lone.roll Source.script "disadvantage")
      (.initial [3, 17, 4, 9])
    better.2.requests = worse.2.requests ∧
      (∃ up down pairs, better.1 = .ok up ∧ worse.1 = .ok down ∧
        Contrast lone.dice [3, 17, 4, 9] up.details down.details pairs ∧
        up.total - down.total = (pairs.map TwoDraws.gap).sum ∧
        down.total ≤ up.total) ∧
      ∀ mode : Mode,
        pair.roll Source.script mode.name = pair.roll Source.script "none" := by
  intro lone pair better worse
  obtain ⟨hrequests, -, hrolls, -⟩ :=
    advantage_exceeds_by_gaps Source.script lone (.initial [3, 17, 4, 9])
  obtain ⟨-, -, -, halike⟩ :=
    advantage_exceeds_by_gaps Source.script pair (.initial [])
  refine ⟨hrequests, ?_, halike (by decide)⟩
  rcases hrolls with ⟨-, failure, hfailed, -⟩ |
    ⟨up, down, requests, draws, pairs, hup, hdown, hmade, hdraws, hcontrast, -,
      htotal, hsign⟩
  · cases hfailed
  · have hfour : requests = List.replicate 4 ⟨1, 20⟩ := by
      have hlist := congrArg Array.toList hmade
      rw [Array.toList_append, List.toList_toArray] at hlist
      exact hlist.symm
    rw [hfour] at hdraws
    obtain rfl : [3, 17, 4, 9] = draws := congrArg Reply.answers hdraws
    exact ⟨up, down, pairs, hup, hdown, hcontrast, htotal, hsign (by decide)⟩

end TabletopDice
