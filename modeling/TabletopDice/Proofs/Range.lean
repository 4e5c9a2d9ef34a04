import TabletopDice.Proofs.Account

/-!
# The range of totals

If all answers lie within the bounds asked for, every roll shows a side of its
die, and the total lies between two extremes: an added die counts for one at
least and a subtracted die for its largest side at most.  No integer between
the extremes is skipped.  For a sum of dice this is an induction over the dice,
and for a sum of terms one over the terms, where each takes as much as it can
of what is left to the later ones.
-/

namespace TabletopDice

open Rolling

/-! ## Dice of one kind -/

theorem forall₂_replicate_iff {α β : Type} {r : α → β → Prop} {a : α} {n : ℕ}
    {values : List β} :
    List.Forall₂ r (List.replicate n a) values ↔
      values.length = n ∧ ∀ value ∈ values, r a value := by
  induction n generalizing values with
  | zero =>
      rw [List.replicate_zero, List.forall₂_nil_left_iff, List.length_eq_zero_iff]
      constructor
      · intro hnil
        simp [hnil]
      · exact And.left
  | succ n ih =>
      cases values with
      | nil => simp [List.replicate_succ]
      | cons value values =>
          rw [List.replicate_succ, List.forall₂_cons, ih]
          simp only [List.length_cons, Nat.add_right_cancel_iff,
            List.forall_mem_cons]
          tauto

/-- Rolls that each show a side of a die with so many sides. -/
def ShowSides (sides : ℤ) (rolls : List ℤ) : Prop :=
  ∀ value ∈ rolls, 1 ≤ value ∧ value ≤ sides

theorem ShowSides.sum_bounds {sides : ℤ} {rolls : List ℤ}
    (hrolls : ShowSides sides rolls) :
    rolls.length ≤ rolls.sum ∧ rolls.sum ≤ rolls.length * sides := by
  have hlow := List.card_nsmul_le_sum rolls 1 fun v hv => (hrolls v hv).1
  have hhigh := List.sum_le_card_nsmul rolls sides fun v hv => (hrolls v hv).2
  rw [nsmul_eq_mul, mul_one] at hlow
  rw [nsmul_eq_mul] at hhigh
  exact ⟨hlow, hhigh⟩

/-- The first die takes what the others cannot, and at least one. -/
theorem exists_rolls_sum_eq {sides : ℤ} (hsides : 1 ≤ sides) {n : ℕ} {sum : ℤ}
    (hlow : n ≤ sum) (hhigh : sum ≤ n * sides) :
    ∃ rolls : List ℤ, rolls.length = n ∧ ShowSides sides rolls ∧
      rolls.sum = sum := by
  induction n generalizing sum with
  | zero =>
      refine ⟨[], rfl, by simp [ShowSides], ?_⟩
      rw [List.sum_nil]
      push_cast at hlow hhigh
      omega
  | succ n ih =>
      push_cast at hlow hhigh
      rw [add_mul, one_mul] at hhigh
      have hothers : (n : ℤ) ≤ n * sides :=
        le_mul_of_one_le_right (Int.natCast_nonneg n) hsides
      let first := max 1 (sum - n * sides)
      have hfirst : 1 ≤ first ∧ first ≤ sides := by omega
      have hlater : n ≤ sum - first ∧ sum - first ≤ n * sides := by omega
      obtain ⟨rolls, hlength, hshown, hsum⟩ := ih hlater.1 hlater.2
      refine ⟨first :: rolls, ?_, ?_, ?_⟩
      · rw [List.length_cons, hlength]
      · exact List.forall_mem_cons.mpr ⟨hfirst, hshown⟩
      · rw [List.sum_cons, hsum]
        omega

/-! ## One term -/

namespace DiceTerm

/-- A roll that is kept shows a side, like the two of which it is one. -/
theorem showSides_recorded {mode : Mode} {term : DiceTerm} {block : List ℤ}
    (hblock : List.Forall₂ Request.Admits (term.requests mode) block) :
    ShowSides term.sides (term.recorded mode block) := by
  unfold requests at hblock
  unfold recorded
  by_cases hterm : term.IsDoubled mode
  · obtain ⟨hmode, hsides, hcount⟩ := hterm
    rw [if_pos ⟨hmode, hsides, hcount⟩] at hblock ⊢
    change List.Forall₂ Request.Admits (List.replicate 2 ⟨1, 20⟩) block at hblock
    obtain ⟨hlength, hadmits⟩ := forall₂_replicate_iff.mp hblock
    obtain ⟨first, second, hpair⟩ := List.length_eq_two.mp hlength
    subst block
    have hfirst : 1 ≤ first ∧ first ≤ 20 := hadmits first (by simp)
    have hsecond : 1 ≤ second ∧ second ≤ 20 := hadmits second (by simp)
    intro value hvalue
    rw [hsides]
    cases mode with
    | plain => exact absurd rfl hmode
    | advantage =>
        have hkept : value = max first second := List.mem_singleton.mp hvalue
        omega
    | disadvantage =>
        have hkept : value = min first second := List.mem_singleton.mp hvalue
        omega
  · rw [if_neg hterm] at hblock ⊢
    exact (forall₂_replicate_iff.mp hblock).2

/-- Whatever sides are to be recorded, there are answers that do it: those
sides, or one of them twice. -/
theorem exists_block_recorded_eq (mode : Mode) {term : DiceTerm}
    {rolls : List ℤ} (hlength : rolls.length = term.count.toNat)
    (hrolls : ShowSides term.sides rolls) :
    ∃ block, List.Forall₂ Request.Admits (term.requests mode) block ∧
      term.recorded mode block = rolls := by
  unfold requests recorded
  by_cases hterm : term.IsDoubled mode
  · obtain ⟨hmode, hsides, hcount⟩ := hterm
    rw [hcount] at hlength
    obtain ⟨value, hvalue⟩ := List.length_eq_one_iff.mp hlength
    subst rolls
    rw [hsides] at hrolls
    have hadmits : Request.Admits ⟨1, 20⟩ value := hrolls value (by simp)
    refine ⟨[value, value], ?_, ?_⟩
    · rw [if_pos ⟨hmode, hsides, hcount⟩]
      exact .cons hadmits (.cons hadmits .nil)
    · rw [if_pos ⟨hmode, hsides, hcount⟩]
      exact Mode.keep_twice hmode value
  · refine ⟨rolls, ?_, if_neg hterm⟩
    rw [if_neg hterm]
    exact forall₂_replicate_iff.mpr ⟨hlength, hrolls⟩

def leastSubtotal (term : DiceTerm) : ℤ :=
  if 0 < term.sign then term.count else -(term.count * term.sides)

def greatestSubtotal (term : DiceTerm) : ℤ :=
  if 0 < term.sign then term.count * term.sides else -term.count

theorem WellFormed.subtotal_bounds {term : DiceTerm} (hterm : term.WellFormed)
    {mode : Mode} {block : List ℤ}
    (hblock : List.Forall₂ Request.Admits (term.requests mode) block) :
    term.leastSubtotal ≤ (term.detail mode block).subtotal ∧
      (term.detail mode block).subtotal ≤ term.greatestSubtotal := by
  have hlength := length_recorded hblock.length_eq.symm
  have hsum := (showSides_recorded hblock).sum_bounds
  have hcount : ((term.count.toNat : ℕ) : ℤ) = term.count :=
    Int.toNat_of_nonneg (by linarith [hterm.count.1])
  rw [hlength, hcount] at hsum
  unfold leastSubtotal greatestSubtotal
  change _ ≤ term.sign * (term.recorded mode block).sum ∧
    term.sign * (term.recorded mode block).sum ≤ _
  rcases hterm.sign with hsign | hsign
  · simpa [hsign] using hsum
  · simpa [hsign, and_comm] using hsum

theorem WellFormed.exists_block_subtotal_eq {term : DiceTerm}
    (hterm : term.WellFormed) (mode : Mode) {subtotal : ℤ}
    (hlow : term.leastSubtotal ≤ subtotal)
    (hhigh : subtotal ≤ term.greatestSubtotal) :
    ∃ block, List.Forall₂ Request.Admits (term.requests mode) block ∧
      (term.detail mode block).subtotal = subtotal := by
  have hcount : ((term.count.toNat : ℕ) : ℤ) = term.count :=
    Int.toNat_of_nonneg (by linarith [hterm.count.1])
  have hsum : term.count ≤ term.sign * subtotal ∧
      term.sign * subtotal ≤ term.count * term.sides := by
    unfold leastSubtotal at hlow
    unfold greatestSubtotal at hhigh
    rcases hterm.sign with hsign | hsign
    · simp only [hsign, one_pos, if_true] at hlow hhigh
      simp [hsign, hlow, hhigh]
    · simp only [hsign, Int.reduceLT, if_false] at hlow hhigh
      simp only [hsign]
      constructor <;> linarith
  rw [← hcount] at hsum
  obtain ⟨rolls, hlength, hshown, hrolls⟩ :=
    exists_rolls_sum_eq hterm.sides.1 hsum.1 hsum.2
  obtain ⟨block, hblock, hrecorded⟩ :=
    exists_block_recorded_eq mode hlength hshown
  refine ⟨block, hblock, ?_⟩
  change term.sign * (term.recorded mode block).sum = subtotal
  rw [hrecorded, hrolls]
  rcases hterm.sign with hsign | hsign
  · simp [hsign]
  · simp [hsign]

theorem WellFormed.leastSubtotal_le_greatestSubtotal {term : DiceTerm}
    (hterm : term.WellFormed) :
    term.leastSubtotal ≤ term.greatestSubtotal := by
  have hcount : 0 ≤ term.count := by linarith [hterm.count.1]
  have hproduct := le_mul_of_one_le_right hcount hterm.sides.1
  unfold leastSubtotal greatestSubtotal
  split
  · exact hproduct
  · linarith

end DiceTerm

/-! ## All terms -/

section Terms

variable {dice : List DiceTerm} {mode : Mode}

theorem sum_subtotals_bounds (hdice : ∀ term ∈ dice, term.WellFormed)
    {blocks : List (List ℤ)}
    (hblocks : List.Forall₂ (fun term block =>
      List.Forall₂ Request.Admits (DiceTerm.requests mode term) block)
      dice blocks) :
    let subtotals :=
      (List.zipWith (DiceTerm.detail mode) dice blocks).map Detail.subtotal
    (dice.map DiceTerm.leastSubtotal).sum ≤ subtotals.sum ∧
      subtotals.sum ≤ (dice.map DiceTerm.greatestSubtotal).sum := by
  induction hblocks with
  | nil => exact ⟨le_rfl, le_rfl⟩
  | @cons term block dice blocks hblock _ ih =>
      have hfirst :=
        (hdice term List.mem_cons_self).subtotal_bounds hblock
      have hlater := ih fun later hmem =>
        hdice later (List.mem_cons_of_mem term hmem)
      simp only [List.zipWith_cons_cons, List.map_cons, List.sum_cons]
      exact ⟨add_le_add hfirst.1 hlater.1, add_le_add hfirst.2 hlater.2⟩

theorem sum_least_le_sum_greatest (hdice : ∀ term ∈ dice, term.WellFormed) :
    (dice.map DiceTerm.leastSubtotal).sum ≤
      (dice.map DiceTerm.greatestSubtotal).sum := by
  apply List.sum_le_sum
  intro term hterm
  exact (hdice term hterm).leastSubtotal_le_greatestSubtotal

/-- The first term takes what the later ones cannot, and at least its own
extreme. -/
theorem exists_answers_sum_eq (hdice : ∀ term ∈ dice, term.WellFormed)
    (mode : Mode) {sum : ℤ}
    (hlow : (dice.map DiceTerm.leastSubtotal).sum ≤ sum)
    (hhigh : sum ≤ (dice.map DiceTerm.greatestSubtotal).sum) :
    ∃ answers,
      List.Forall₂ Request.Admits (dice.flatMap (DiceTerm.requests mode))
        answers ∧
      ((List.zipWith (DiceTerm.detail mode) dice
        (blocks (dice.map (DiceTerm.requests mode)) answers)).map
          Detail.subtotal).sum = sum := by
  induction dice generalizing sum with
  | nil =>
      refine ⟨[], .nil, ?_⟩
      simp only [List.map_nil, List.sum_nil] at hlow hhigh
      exact le_antisymm hlow hhigh
  | cons term dice ih =>
      have hterm := hdice term List.mem_cons_self
      have hothers : ∀ later ∈ dice, later.WellFormed :=
        fun later hmem => hdice later (List.mem_cons_of_mem term hmem)
      have hfirst := hterm.leastSubtotal_le_greatestSubtotal
      have hrange := sum_least_le_sum_greatest hothers
      rw [List.map_cons, List.sum_cons] at hlow hhigh
      let least := (dice.map DiceTerm.leastSubtotal).sum
      let greatest := (dice.map DiceTerm.greatestSubtotal).sum
      -- What the later terms cannot reach at their greatest falls to this one.
      let subtotal := max term.leastSubtotal (sum - greatest)
      have hown : term.leastSubtotal ≤ subtotal ∧
          subtotal ≤ term.greatestSubtotal := by omega
      have hlater : least ≤ sum - subtotal ∧ sum - subtotal ≤ greatest := by
        omega
      obtain ⟨block, hblock, hsubtotal⟩ :=
        hterm.exists_block_subtotal_eq mode hown.1 hown.2
      obtain ⟨answers, hanswers, hsum⟩ := ih hothers hlater.1 hlater.2
      have hlength := hblock.length_eq
      refine ⟨block ++ answers, List.rel_append hblock hanswers, ?_⟩
      rw [List.map_cons, blocks_cons, hlength, List.take_left, List.drop_left,
        List.zipWith_cons_cons, List.map_cons, List.sum_cons, hsubtotal, hsum]
      omega

end Terms

namespace Expression

/-- Every added die shows one, and every subtracted die its largest side. -/
def leastTotal (expr : Expression) : ℤ :=
  (expr.modifiers.map fun m => m.sign * m.value).sum +
    ((expr.dice.filter (0 < ·.sign)).map DiceTerm.count).sum -
    ((expr.dice.filter (·.sign < 0)).map fun t => t.count * t.sides).sum

/-- Every added die shows its largest side, and every subtracted die one. -/
def greatestTotal (expr : Expression) : ℤ :=
  (expr.modifiers.map fun m => m.sign * m.value).sum +
    ((expr.dice.filter (0 < ·.sign)).map fun t => t.count * t.sides).sum -
    ((expr.dice.filter (·.sign < 0)).map DiceTerm.count).sum

theorem sum_filter_sign {dice : List DiceTerm}
    (hdice : ∀ term ∈ dice, term.WellFormed) (added subtracted : DiceTerm → ℤ) :
    ((dice.filter (0 < ·.sign)).map added).sum -
        ((dice.filter (·.sign < 0)).map subtracted).sum =
      (dice.map fun term =>
        if 0 < term.sign then added term else -subtracted term).sum := by
  induction dice with
  | nil => rfl
  | cons term dice ih =>
      have hlater := ih fun later hmem =>
        hdice later (List.mem_cons_of_mem term hmem)
      rw [List.map_cons, List.sum_cons, ← hlater]
      rcases (hdice term List.mem_cons_self).sign with hsign | hsign
      · simp [hsign, add_sub_assoc]
      · simp [hsign]
        ring

theorem WellFormed.leastTotal_eq {expr : Expression}
    (hexpr : expr.WellFormed) :
    expr.leastTotal = (expr.modifiers.map fun m => m.sign * m.value).sum +
      (expr.dice.map DiceTerm.leastSubtotal).sum := by
  unfold leastTotal
  rw [add_sub_assoc, sum_filter_sign hexpr.dice]
  rfl

theorem WellFormed.greatestTotal_eq {expr : Expression}
    (hexpr : expr.WellFormed) :
    expr.greatestTotal = (expr.modifiers.map fun m => m.sign * m.value).sum +
      (expr.dice.map DiceTerm.greatestSubtotal).sum := by
  unfold greatestTotal
  rw [add_sub_assoc, sum_filter_sign hexpr.dice]
  rfl

/-! ## Rolls of an expression -/

theorem WellFormed.satisfiable_of_mem_plan {expr : Expression}
    (hexpr : expr.WellFormed) {mode : Mode} {request : Request}
    (hrequest : request ∈ expr.plan mode) : request.Satisfiable := by
  obtain ⟨term, hterm, hmem⟩ := List.mem_flatMap.mp hrequest
  unfold DiceTerm.requests at hmem
  split at hmem
  · have heq : request = ⟨1, 20⟩ := by simpa using hmem
    rw [heq]
    change (1 : ℤ) ≤ 20
    decide
  · rw [List.eq_of_mem_replicate hmem]
    exact (hexpr.dice term hterm).sides.1

variable {σ : Type} {source : Source σ}

theorem WellFormed.exists_ok_throw {expr : Expression}
    (hexpr : expr.WellFormed)
    (hsource : ∀ request, request.Satisfiable → source.Answers request)
    (mode : Mode) (feed : Feed σ) :
    ∃ roll after, expr.throw source mode feed = .ok roll after :=
  (expr.follows_throw source mode).exists_ok_of_answers
    (fun _ hmem => hsource _ (hexpr.satisfiable_of_mem_plan hmem)) feed

theorem WellFormed.admits_of_throw_eq_ok {expr : Expression}
    (hexpr : expr.WellFormed) (hsource : source.KeepsBounds) {mode : Mode}
    {feed after : Feed σ} {roll : Roll}
    (hroll : expr.throw source mode feed = .ok roll after) :
    ∃ answers, List.Forall₂ Request.Admits (expr.plan mode) answers ∧
      roll = expr.outcome mode answers := by
  obtain ⟨hgranted, houtcome⟩ := exists_answers_of_throw_eq_ok hroll
  have hplan : ∀ request ∈ expr.plan mode, request.Satisfiable :=
    fun _ hmem => hexpr.satisfiable_of_mem_plan hmem
  exact ⟨_, hsource.admits_ask hplan hgranted, houtcome⟩

theorem showSides_of_mem_details {mode : Mode} {expr : Expression}
    {answers : List ℤ}
    (hanswers : List.Forall₂ Request.Admits (expr.plan mode) answers)
    {detail : Detail} (hdetail : detail ∈ expr.details mode answers) :
    ShowSides detail.term.sides detail.rolls := by
  obtain ⟨term, -, block, hblock, hdetail⟩ :=
    exists_block_of_mem_details hanswers hdetail
  rw [hdetail]
  exact DiceTerm.showSides_recorded hblock

theorem WellFormed.total_outcome_bounds {expr : Expression}
    (hexpr : expr.WellFormed) {mode : Mode} {answers : List ℤ}
    (hanswers : List.Forall₂ Request.Admits (expr.plan mode) answers) :
    expr.leastTotal ≤ (expr.outcome mode answers).total ∧
      (expr.outcome mode answers).total ≤ expr.greatestTotal := by
  have hsums := sum_subtotals_bounds hexpr.dice (forall₂_dealt hanswers)
  rw [hexpr.leastTotal_eq, hexpr.greatestTotal_eq]
  exact ⟨add_le_add le_rfl hsums.1, add_le_add le_rfl hsums.2⟩

theorem WellFormed.exists_script_total_eq {expr : Expression}
    (hexpr : expr.WellFormed) (mode : Mode) {total : ℤ}
    (hlow : expr.leastTotal ≤ total) (hhigh : total ≤ expr.greatestTotal) :
    ∃ values roll after,
      expr.throw Source.script mode (.initial values) = .ok roll after ∧
      roll.total = total ∧
      List.Forall₂ Request.Admits after.requests.toList values := by
  rw [hexpr.leastTotal_eq] at hlow
  rw [hexpr.greatestTotal_eq] at hhigh
  let flat := (expr.modifiers.map fun m => m.sign * m.value).sum
  have hleast : (expr.dice.map DiceTerm.leastSubtotal).sum ≤
      total - flat := by omega
  have hgreatest : total - flat ≤
      (expr.dice.map DiceTerm.greatestSubtotal).sum := by omega
  obtain ⟨values, hvalues, hsum⟩ :=
    exists_answers_sum_eq hexpr.dice mode hleast hgreatest
  obtain ⟨after, hrun, hrequests, -⟩ :=
    expr.throw_script mode hvalues.length_eq.symm
  refine ⟨values, _, after, hrun, ?_, ?_⟩
  · have htotal : (expr.outcome mode values).total =
        flat + (total - flat) := congrArg (flat + ·) hsum
    omega
  · rw [hrequests]
    exact hvalues

/-- The totals of an expression that was read fill an interval.  Against any
source that keeps to the bounds, a roll shows sides of its dice only and its
total lies between the least and the greatest; and every integer between the
two is the total of a roll against some script that keeps to the bounds. -/
theorem totals_fill_interval {text : String} {expr : Expression}
    (hread : read text = .ok expr) (mode : Mode) :
    (∀ (σ : Type) (source : Source σ) (feed : Feed σ), source.KeepsBounds →
      ((∀ request, request.Satisfiable → source.Answers request) →
        ∃ roll after, expr.roll source mode.name feed = .ok roll after) ∧
      ∀ roll after, expr.roll source mode.name feed = .ok roll after →
        (∀ detail ∈ roll.details, ∀ value ∈ detail.rolls,
          1 ≤ value ∧ value ≤ detail.term.sides) ∧
        expr.leastTotal ≤ roll.total ∧ roll.total ≤ expr.greatestTotal) ∧
    ∀ total, expr.leastTotal ≤ total → total ≤ expr.greatestTotal →
      ∃ values roll after,
        expr.roll Source.script mode.name (.initial values) =
            .ok roll after ∧
          roll.total = total ∧
          List.Forall₂ Request.Admits after.requests.toList values := by
  have hexpr : expr.WellFormed := wellFormed_of_readChars_eq_ok hread
  simp only [roll_mode_name]
  constructor
  · intro σ source feed hkeeps
    refine ⟨fun hanswers => hexpr.exists_ok_throw hanswers mode feed, ?_⟩
    intro roll after hroll
    obtain ⟨answers, hadmits, houtcome⟩ :=
      hexpr.admits_of_throw_eq_ok hkeeps hroll
    rw [houtcome]
    refine ⟨?_, hexpr.total_outcome_bounds hadmits⟩
    intro detail hdetail
    exact showSides_of_mem_details hadmits hdetail
  · intro total hlow hhigh
    exact hexpr.exists_script_total_eq mode hlow hhigh

theorem totals_fill_interval_subtracted_d20 :
    let expr : Expression := ⟨[⟨2, 6, 1⟩, ⟨1, 20, -1⟩], [⟨1, 1⟩]⟩
    read "2d6 - d20 + 1" = .ok expr ∧
      (∃ roll after,
        expr.roll (Source.linear 3 5) Mode.advantage.name (.initial 0) =
            .ok roll after ∧
          -17 ≤ roll.total ∧ roll.total ≤ 12) ∧
      ∃ values roll after,
        expr.roll Source.script Mode.advantage.name (.initial values) =
            .ok roll after ∧
          roll.total = -16 ∧
          List.Forall₂ Request.Admits after.requests.toList values := by
  intro expr
  have hread : read "2d6 - d20 + 1" = .ok expr := by rfl
  obtain ⟨hbounds, hreached⟩ := totals_fill_interval hread .advantage
  have hlinear := Source.linear_answersWithinBounds 3 5
  obtain ⟨hrolls, htotals⟩ := hbounds ℕ _ (.initial 0) hlinear.keepsBounds
  obtain ⟨roll, after, hroll⟩ := hrolls hlinear.answers
  refine ⟨hread, ⟨roll, after, hroll, (htotals roll after hroll).2⟩, ?_⟩
  exact hreached (-16) (by decide) (by decide)

end Expression

end TabletopDice
