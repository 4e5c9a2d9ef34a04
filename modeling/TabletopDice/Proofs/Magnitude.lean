import TabletopDice.Proofs.Range
import TabletopDice.Roll.Written

/-!
# How large a roll can be

Every term of an expression takes at least one character, and adds less than
`2 ^ 64` to a total.  So a text would have to be longer than any that exists
before its totals came near the largest finite number.  A roll whose sums stay
below that number is short enough to be written.
-/

namespace TabletopDice

open Text

/-! ## The terms of a text -/

namespace Expression

def size (expr : Expression) : ℕ :=
  expr.dice.length + expr.modifiers.length

theorem size_ofTerms (terms : List Term) :
    (ofTerms terms).size = terms.length := by
  induction terms with
  | nil => rfl
  | cons term terms ih =>
      unfold size ofTerms at ih ⊢
      cases term with
      | dice term =>
          simp only [List.filterMap_cons, Term.dice?, Term.modifier?,
            List.length_cons] at ih ⊢
          omega
      | modifier modifier =>
          simp only [List.filterMap_cons, Term.dice?, Term.modifier?,
            List.length_cons] at ih ⊢
          omega

theorem Layout.WellFormed.length_pieces_le {layout : Layout}
    (hlayout : layout.WellFormed) :
    layout.pieces.length ≤ layout.text.length := by
  have hparts : ∀ n ∈ layout.parts.map fun part =>
      (part.1 ++ List.replicate part.2 '+').length, 1 ≤ n := by
    rw [List.forall_mem_map]
    intro part hpart
    have hpiece : 0 < part.1.length :=
      List.length_pos_iff.mpr (hlayout.isPiece part hpart).ne_nil
    rw [List.length_append]
    omega
  have hsum := List.length_le_sum_of_one_le _ hparts
  rw [List.length_map] at hsum
  unfold Layout.pieces Layout.text
  rw [List.length_map, List.length_append, List.length_flatMap]
  exact hsum.trans (Nat.le_add_left _ _)

theorem length_pieces_le (cs : List Char) :
    (pieces cs).length ≤ cs.length := by
  have hlayout := (Layout.wellFormed_ofChars (squeeze cs)).length_pieces_le
  rw [Layout.text_ofChars] at hlayout
  rw [pieces_eq_cut, cut_eq_pieces_ofChars]
  exact hlayout.trans (List.length_filter_le _ cs)

theorem size_le_length_of_read_eq_ok {text : String} {expr : Expression}
    (hread : read text = .ok expr) : expr.size ≤ text.length := by
  obtain ⟨terms, -, hspelled, hexpr⟩ := readChars_eq_ok_iff.mp hread
  rw [hexpr, size_ofTerms, ← hspelled.length_eq, ← String.length_toList]
  exact length_pieces_le text.toList

end Expression

/-! ## The sums of a roll -/

theorem abs_sum_le {values : List ℤ} {bound : ℤ}
    (hvalues : ∀ value ∈ values, |value| ≤ bound) :
    |values.sum| ≤ values.length * bound := by
  have hlow := List.card_nsmul_le_sum values (-bound) fun value hvalue =>
    (abs_le.mp (hvalues value hvalue)).1
  have hhigh := List.sum_le_card_nsmul values bound fun value hvalue =>
    (abs_le.mp (hvalues value hvalue)).2
  rw [nsmul_eq_mul] at hlow hhigh
  rw [abs_le]
  constructor
  · linarith
  · exact hhigh

theorem Modifier.WellFormed.abs_le {modifier : Modifier}
    (hmodifier : modifier.WellFormed) :
    |modifier.sign * modifier.value| ≤ 2 ^ 64 := by
  rcases hmodifier with ⟨hsign, hvalue⟩ | ⟨hsign, hvalue⟩
  · rw [hsign, one_mul, abs_of_nonneg hvalue.1]
    omega
  · rw [hsign, neg_one_mul, abs_neg, abs_of_nonneg (by omega)]
    omega

theorem DiceTerm.WellFormed.abs_subtotal_le {term : DiceTerm}
    (hterm : term.WellFormed) {mode : Mode} {block : List ℤ}
    (hblock : List.Forall₂ Request.Admits (term.requests mode) block) :
    |(term.detail mode block).subtotal| ≤ 2 ^ 64 := by
  obtain ⟨hlow, hhigh⟩ := hterm.subtotal_bounds hblock
  have hcount := hterm.count
  have hsides := hterm.sides
  have hdice : term.count * term.sides ≤ (2 ^ 32 - 1) * (2 ^ 32 - 1) :=
    mul_le_mul hcount.2 hsides.2 (by omega) (by decide)
  have hpos : 0 ≤ term.count * term.sides :=
    mul_nonneg (by omega) (by omega)
  unfold leastSubtotal at hlow
  unfold greatestSubtotal at hhigh
  rw [abs_le]
  split_ifs at hlow hhigh <;> omega

theorem natCast_mul_two_pow_lt {n width low high top : ℕ}
    (hn : n < 2 ^ width) (hlow : width + low ≤ high) (hhigh : high < top) :
    (n : ℤ) * 2 ^ low < 2 ^ top - 2 ^ high := by
  have hcast : (n : ℤ) < 2 ^ width := by exact_mod_cast hn
  have hpos : (0 : ℤ) < 2 ^ low := by positivity
  have hbelow : (n : ℤ) * 2 ^ low < 2 ^ high :=
    calc
      (n : ℤ) * 2 ^ low < 2 ^ width * 2 ^ low :=
        Int.mul_lt_mul_of_pos_right hcast hpos
      _ = 2 ^ (width + low) := (pow_add 2 width low).symm
      _ ≤ 2 ^ high := pow_le_pow_right₀ one_le_two hlow
  have hdouble : (2 : ℤ) ^ (high + 1) ≤ 2 ^ top :=
    pow_le_pow_right₀ one_le_two hhigh
  rw [pow_succ] at hdouble
  linarith

/-! ## Integers that can be written -/

theorem isWritable_iff {n : ℤ} :
    Text.isWritable n = true ↔ |n| < 10 ^ digitLimit := by
  unfold Text.isWritable
  rw [decide_eq_true_iff,
    Nat.length_toDigits_le_iff (by decide) (by decide), Int.abs_eq_natAbs]
  exact_mod_cast Iff.rfl

theorem isWritable_of_abs_lt {n : ℤ} (width : ℕ)
    (hwidth : width < digitLimit) (hn : |n| < 2 ^ width) :
    Text.isWritable n = true := by
  rw [isWritable_iff]
  calc
    |n| < 2 ^ width := hn
    _ ≤ 10 ^ width := pow_le_pow_left₀ (by decide) (by decide) width
    _ ≤ 10 ^ digitLimit := pow_le_pow_right₀ (by decide) hwidth.le

theorem isWritable_of_lt_max {n : ℤ} (hn : |n| < 2 ^ 1024 - 2 ^ 970) :
    Text.isWritable n = true := by
  have hpos : (0 : ℤ) < 2 ^ 970 := by positivity
  exact isWritable_of_abs_lt 1024 (by decide)
    (hn.trans (sub_lt_self _ hpos))

theorem isWritable_of_le_maxCount {n : ℤ} (hlow : 1 ≤ n)
    (hhigh : n ≤ 2 ^ 32 - 1) : Text.isWritable n = true := by
  apply isWritable_of_abs_lt 32 (by decide)
  rw [abs_of_nonneg (by omega)]
  omega

/-! ## Sums in range -/

/-- The total of a roll is so far below the largest finite number that no mean
of such totals rounds beyond it.  Dice can make up for modifiers, so the total
says nothing of the sum of the modifiers, which is written in the explanation
of the last roll. -/
structure Roll.InRange (roll : Roll) : Prop where
  flatTotal : Text.isWritable roll.flatTotal = true
  total : |roll.total| < 2 ^ 1024 - 2 ^ 970

namespace Expression.WellFormed

variable {expr : Expression} {mode : Mode} {answers : List ℤ}

theorem abs_flatTotal_outcome_le (hexpr : expr.WellFormed) (mode : Mode)
    (answers : List ℤ) :
    |(expr.outcome mode answers).flatTotal| ≤
      expr.modifiers.length * 2 ^ 64 := by
  have hvalues : ∀ value ∈ expr.modifiers.map fun m => m.sign * m.value,
      |value| ≤ 2 ^ 64 :=
    List.forall_mem_map.mpr fun m hm => (hexpr.modifiers m hm).abs_le
  have hsum := abs_sum_le hvalues
  rw [List.length_map] at hsum
  exact hsum

theorem abs_total_outcome_le (hexpr : expr.WellFormed)
    (hanswers : List.Forall₂ Request.Admits (expr.plan mode) answers) :
    |(expr.outcome mode answers).total| ≤ expr.size * 2 ^ 64 := by
  have hvalues : ∀ value ∈
      (expr.details mode answers).map Detail.subtotal, |value| ≤ 2 ^ 64 := by
    rw [List.forall_mem_map]
    intro detail hdetail
    obtain ⟨term, hterm, block, hblock, hdetail⟩ :=
      exists_block_of_mem_details hanswers hdetail
    rw [hdetail]
    exact (hexpr.dice term hterm).abs_subtotal_le hblock
  have hsubtotals := abs_sum_le hvalues
  have hflat := hexpr.abs_flatTotal_outcome_le mode answers
  have hdice : (expr.details mode answers).length = expr.dice.length := by
    rw [← expr.map_term_details mode answers, List.length_map]
  rw [List.length_map, hdice] at hsubtotals
  have hsize : (expr.size : ℤ) =
      expr.dice.length + expr.modifiers.length := Nat.cast_add _ _
  have htotal : (expr.outcome mode answers).total =
      (expr.outcome mode answers).flatTotal +
        ((expr.details mode answers).map Detail.subtotal).sum := rfl
  -- The modifiers and the dice are bounded apart, and the terms add up.
  rw [htotal, hsize]
  have htriangle := abs_add_le (expr.outcome mode answers).flatTotal
    ((expr.details mode answers).map Detail.subtotal).sum
  linarith

theorem inRange_outcome (hexpr : expr.WellFormed)
    (hsize : expr.size < 2 ^ 900)
    (hanswers : List.Forall₂ Request.Admits (expr.plan mode) answers) :
    (expr.outcome mode answers).InRange := by
  have hbound : (expr.size : ℤ) * 2 ^ 64 < 2 ^ 1024 - 2 ^ 970 :=
    natCast_mul_two_pow_lt hsize (by decide) (by decide)
  have hmodifiers : (expr.modifiers.length : ℤ) ≤ expr.size :=
    Int.ofNat_le.mpr (Nat.le_add_left _ _)
  constructor
  · apply isWritable_of_lt_max
    calc
      _ ≤ (expr.modifiers.length : ℤ) * 2 ^ 64 :=
        hexpr.abs_flatTotal_outcome_le mode answers
      _ ≤ (expr.size : ℤ) * 2 ^ 64 :=
        Int.mul_le_mul_of_nonneg_right hmodifiers (by decide)
      _ < 2 ^ 1024 - 2 ^ 970 := hbound
  · exact (hexpr.abs_total_outcome_le hanswers).trans_lt hbound

end Expression.WellFormed

/-! ## Rolls that can be written -/

theorem ShowSides.isWritable {sides : ℤ} (hsides : sides ≤ 2 ^ 32 - 1)
    {rolls : List ℤ} (hrolls : ShowSides sides rolls) :
    rolls.all Text.isWritable = true := by
  rw [List.all_eq_true]
  intro value hvalue
  obtain ⟨hlow, hhigh⟩ := hrolls value hvalue
  exact isWritable_of_le_maxCount hlow (hhigh.trans hsides)

theorem DiceTerm.WellFormed.isWritable_detail {term : DiceTerm}
    (hterm : term.WellFormed) {mode : Mode} {block : List ℤ}
    (hblock : List.Forall₂ Request.Admits (term.requests mode) block) :
    (term.detail mode block).isWritable = true := by
  have hcount := isWritable_of_le_maxCount hterm.count.1 hterm.count.2
  have hsides := isWritable_of_le_maxCount hterm.sides.1 hterm.sides.2
  have hsubtotal :
      Text.isWritable (term.detail mode block).subtotal = true := by
    have hrange := hterm.abs_subtotal_le hblock
    apply isWritable_of_abs_lt 65 (by decide)
    omega
  have hrolls : (term.recorded mode block).all Text.isWritable = true :=
    (showSides_recorded hblock).isWritable hterm.sides.2
  unfold Detail.isWritable
  rw [Bool.and_eq_true]
  refine ⟨?_, hrolls⟩
  simp only [List.all_cons, List.all_nil, Bool.and_true, Bool.and_eq_true]
  exact ⟨hcount, hsides, hsubtotal⟩

/-- A roll in range is written in full, and so is its explanation. -/
theorem Expression.WellFormed.isWritable_outcome {expr : Expression}
    (hexpr : expr.WellFormed) {mode : Mode} {answers : List ℤ}
    (hanswers : List.Forall₂ Request.Admits (expr.plan mode) answers)
    (hrange : (expr.outcome mode answers).InRange) (quiet : Bool) :
    (expr.outcome mode answers).isWritable quiet = true := by
  have hdetails : (expr.outcome mode answers).details.all
      Detail.isWritable = true := by
    rw [List.all_eq_true]
    intro detail hdetail
    obtain ⟨term, hterm, block, hblock, hdetail⟩ :=
      exists_block_of_mem_details hanswers hdetail
    rw [hdetail]
    exact (hexpr.dice term hterm).isWritable_detail hblock
  have htotal := isWritable_of_lt_max hrange.total
  unfold Roll.isWritable
  rw [htotal, hdetails, hrange.flatTotal, Bool.true_and, Bool.and_true,
    Bool.or_true]

end TabletopDice
