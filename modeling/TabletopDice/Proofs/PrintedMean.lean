import TabletopDice.Proofs.Decimal
import TabletopDice.Proofs.Statistics

/-!
# The mean that is shown

The mean is rounded twice before it is shown, to a binary64 number and then to
hundredths.  Both roundings are monotone and leave the integers alone, as far
as these have at most 53 binary digits, so that the number on the line of the
mean lies between those on the lines of the extremes.
-/

namespace TabletopDice

open Text Number

namespace Number.Binary64

/-- The number that two places show. -/
def inHundredths (x : Binary64) : ℚ :=
  (if x.negative then -(x.hundredths : ℚ) else x.hundredths) / 100

variable {x : Binary64}

/-! ## Rounding to hundredths -/

theorem isHalfEven_hundredths (x : Binary64) :
    IsHalfEven x.hundredths (|x.toRat| * 100) := by
  have hunit : (0 : ℚ) < 2 ^ 1074 := by positivity
  have hpos : 0 < 1 <<< 1074 := by
    rw [Nat.shiftLeft_eq]
    positivity
  have hhalf := isHalfEven_roundQuotient (x.units * 100) hpos
  rwa [natCast_shiftLeft, Nat.cast_one, one_mul, Nat.cast_mul, ← abs_toRat_mul,
    mul_right_comm, mul_div_cancel_right₀ _ hunit.ne'] at hhalf

theorem hundredths_le {v : ℤ} (hv : |x.toRat| ≤ v) :
    (x.hundredths : ℚ) ≤ v * 100 := by
  have hnonneg : 0 ≤ v := by exact_mod_cast (abs_nonneg x.toRat).trans hv
  lift v to ℕ using hnonneg
  have hle := (isHalfEven_hundredths x).le_of_le (isHalfEven_natCast (v * 100))
    (by push_cast at hv ⊢; linarith)
  exact_mod_cast hle

theorem le_hundredths {v : ℤ} (hv : v ≤ |x.toRat|) :
    (v * 100 : ℚ) ≤ x.hundredths := by
  rcases lt_or_ge v 0 with hneg | hnonneg
  · have hvq : (v : ℚ) < 0 := by exact_mod_cast hneg
    have hhundredths : (0 : ℚ) ≤ x.hundredths := Nat.cast_nonneg _
    linarith
  · lift v to ℕ using hnonneg
    have hle := (isHalfEven_natCast (v * 100)).le_of_le
      (isHalfEven_hundredths x) (by push_cast at hv ⊢; linarith)
    exact_mod_cast hle

theorem inHundredths_le {v : ℤ} (hv : x.toRat ≤ v) : x.inHundredths ≤ v := by
  unfold inHundredths
  rw [div_le_iff₀ (by norm_num)]
  by_cases hsign : x.negative = true
  · rw [toRat_of_negative hsign, neg_le, ← Int.cast_neg] at hv
    have hle := le_hundredths hv
    rw [if_pos hsign]
    push_cast at hle
    linarith
  · rw [toRat_of_not_negative hsign] at hv
    rw [if_neg hsign]
    exact hundredths_le hv

theorem le_inHundredths {v : ℤ} (hv : v ≤ x.toRat) : v ≤ x.inHundredths := by
  unfold inHundredths
  rw [le_div_iff₀ (by norm_num)]
  by_cases hsign : x.negative = true
  · rw [toRat_of_negative hsign, le_neg, ← Int.cast_neg] at hv
    have hle := hundredths_le hv
    rw [if_pos hsign]
    push_cast at hle
    linarith
  · rw [toRat_of_not_negative hsign] at hv
    rw [if_neg hsign]
    exact le_hundredths hv

/-! ## The text with two places -/

theorem toList_twoPlaces (hfinite : x.isFinite = true) :
    x.twoPlaces.toList = minus x.negative ++
      (Nat.toDigits 10 (x.hundredths / 100) ++
        '.' :: (paddedDecimal 2 (x.hundredths % 100)).toList) := by
  have hsign : (if x.negative then "-" else "").toList = minus x.negative := by
    cases x.negative <;> rfl
  have hwhole : (x.hundredths / 100 : ℤ) = (x.hundredths / 100 : ℕ) := rfl
  unfold twoPlaces
  dsimp only
  rw [if_pos hfinite, hwhole]
  simp only [String.toList_append, hsign, toList_decimal_natCast,
    List.append_assoc]
  rfl

theorem readDecimal?_twoPlaces (hfinite : x.isFinite = true) :
    readDecimal? x.twoPlaces.toList = some x.inHundredths := by
  have hwhole := isDigits_toDigits (x.hundredths / 100)
  have hpart := isDigits_paddedDecimal 2 (x.hundredths % 100)
  have hcore : IsCore x.negative (Nat.toDigits 10 (x.hundredths / 100) ++
      '.' :: (paddedDecimal 2 (x.hundredths % 100)).toList) := by
    intro _ hhead
    rw [List.head?_append_of_ne_nil _ Nat.toDigits_ne_nil] at hhead
    exact not_mem_of_isDigit (isDigits_iff.mp hwhole).2 isDigit_minus
      (List.mem_of_mem_head? hhead)
  have hdivision : ((x.hundredths / 100 : ℕ) : ℚ) +
      (x.hundredths % 100 : ℕ) / 10 ^ 2 = x.hundredths / 100 := by
    have hnat : (100 * (x.hundredths / 100 : ℕ) + (x.hundredths % 100 : ℕ) : ℚ) =
        x.hundredths := by
      exact_mod_cast Nat.div_add_mod x.hundredths 100
    linarith
  have hlength : (paddedDecimal 2 (x.hundredths % 100)).toList.length = 2 :=
    length_paddedDecimal two_pos (Nat.mod_lt x.hundredths (by norm_num))
  have hmagnitude := readMagnitude?_point hwhole hpart
  rw [digitsValue_toDigits, digitsValue_paddedDecimal, hlength, hdivision]
    at hmagnitude
  rw [toList_twoPlaces hfinite, readDecimal?_minus_append hcore hmagnitude,
    inHundredths, ite_div, neg_div]

/-- An integer is shown as it is written, with two zeros behind the point. -/
theorem twoPlaces_of_toRat_eq (hfinite : x.isFinite = true) {v : ℤ}
    (hsign : x.negative = true ↔ v < 0) (hv : x.toRat = v) :
    x.twoPlaces = decimal v ++ ".00" := by
  have hmagnitude : |x.toRat| = v.natAbs := by
    rw [hv, Nat.cast_natAbs, Int.cast_abs]
  have hhundredths : x.hundredths = v.natAbs * 100 := by
    apply (isHalfEven_hundredths x).eq_natCast
    rw [hmagnitude]
    push_cast
    rfl
  have hnegative : x.negative = decide (v < 0) :=
    Bool.eq_iff_iff.mpr (hsign.trans decide_eq_true_iff.symm)
  apply String.toList_inj.mp
  rw [toList_twoPlaces hfinite, hhundredths, hnegative,
    Nat.mul_div_cancel _ (by norm_num), Nat.mul_mod_left, String.toList_append,
    toList_decimal, List.append_assoc]
  rfl

end Number.Binary64

namespace Summary

/-! ## The lines of a summary -/

theorem labelled?_min (summary : Summary) :
    labelled? "min:" summary.lines =
      some ("min:   " ++ decimal summary.least) := by
  simp [labelled?, lines]

theorem labelled?_max (summary : Summary) :
    labelled? "max:" summary.lines =
      some ("max:   " ++ decimal summary.greatest) := by
  simp [labelled?, lines]

theorem labelled?_mean (summary : Summary) :
    labelled? "mean:" summary.lines =
      some ("mean:  " ++ summary.mean.twoPlaces) := by
  simp [labelled?, lines]

theorem shown?_min (summary : Summary) :
    shown? "min:" summary.lines = some (summary.least : ℚ) :=
  shown?_eq_some (n := 3) summary.labelled?_min (readDecimal?_decimal _)

theorem shown?_max (summary : Summary) :
    shown? "max:" summary.lines = some (summary.greatest : ℚ) :=
  shown?_eq_some (n := 3) summary.labelled?_max (readDecimal?_decimal _)

theorem shown?_mean {summary : Summary}
    (hfinite : summary.mean.isFinite = true) :
    shown? "mean:" summary.lines = some summary.mean.inHundredths :=
  shown?_eq_some (n := 2) summary.labelled?_mean
    (Binary64.readDecimal?_twoPlaces hfinite)

variable {totals : List ℤ} {summary : Summary}

theorem IsExact.inHundredths_bounds (hexact : summary.IsExact totals)
    (hrange : ∀ total ∈ totals, |total| ≤ 2 ^ 53) :
    summary.least ≤ summary.mean.inHundredths ∧
      summary.mean.inHundredths ≤ summary.greatest := by
  -- The extremes are numbers themselves, which no rounding moves past.
  have hleast := Binary64.representable_intCast
    (hrange _ hexact.covers.least_mem)
  have hgreatest := Binary64.representable_intCast
    (hrange _ hexact.covers.greatest_mem)
  constructor
  · exact Binary64.le_inHundredths
      (hexact.mean.le_toRat hleast hexact.covers.least_le_exactMean)
  · exact Binary64.inHundredths_le
      (hexact.mean.toRat_le hgreatest hexact.covers.exactMean_le_greatest)

theorem IsExact.twoPlaces_of_forall_eq (hexact : summary.IsExact totals)
    {value : ℤ} (hvalue : |value| ≤ 2 ^ 53)
    (hequal : ∀ total ∈ totals, total = value) :
    summary.mean.twoPlaces = decimal value ++ ".00" := by
  have hne := hexact.covers.ne_nil
  have hmean : exactMean totals = value :=
    le_antisymm (exactMean_le hne fun total htotal => (hequal total htotal).le)
      (le_exactMean hne fun total htotal => (hequal total htotal).ge)
  have hround := hexact.mean
  rw [hmean] at hround
  have hsign := hround.negative_iff
  rw [Int.cast_lt_zero] at hsign
  exact Binary64.twoPlaces_of_toRat_eq hround.finite hsign
    (hround.toRat_eq (Binary64.representable_intCast hvalue))

theorem exists_isExact_of_abs_le (hne : totals ≠ [])
    (hrange : ∀ total ∈ totals, |total| ≤ 2 ^ 53) :
    ∃ summary, ofTotals totals = .ok (some summary) ∧
      summary.IsExact totals := by
  apply exists_isExact hne
  apply abs_exactMean_lt hne
  intro total htotal
  apply Binary64.abs_lt_of_abs_le
  have hcast : |(total : ℚ)| ≤ 2 ^ 53 := by exact_mod_cast hrange total htotal
  linarith

/-- The number on the line of the mean is between those on the lines of the
extremes, and equal totals are shown once more as the mean, with two zeros. -/
theorem printed_mean_between_extremes (hne : totals ≠ [])
    (hrange : ∀ total ∈ totals, |total| ≤ 2 ^ 53) :
    ∃ summary, ofTotals totals = .ok (some summary) ∧
      (∃ least mean greatest : ℚ,
        shown? "min:" summary.lines = some least ∧
        shown? "mean:" summary.lines = some mean ∧
        shown? "max:" summary.lines = some greatest ∧
        least ≤ mean ∧ mean ≤ greatest) ∧
      ∀ value, (∀ total ∈ totals, total = value) →
        labelled? "mean:" summary.lines =
          some ("mean:  " ++ (decimal value ++ ".00")) := by
  obtain ⟨summary, hfound, hexact⟩ := exists_isExact_of_abs_le hne hrange
  have hbounds := hexact.inHundredths_bounds hrange
  refine ⟨summary, hfound, ⟨_, _, _, summary.shown?_min,
    shown?_mean hexact.mean.finite, summary.shown?_max, hbounds⟩, ?_⟩
  intro value hequal
  have hvalue : |value| ≤ 2 ^ 53 := by
    rw [← hequal _ hexact.covers.least_mem]
    exact hrange _ hexact.covers.least_mem
  rw [summary.labelled?_mean, hexact.twoPlaces_of_forall_eq hvalue hequal]

theorem printed_mean_between_extremes_below_zero :
    let totals : List ℤ := -1 :: List.replicate 400 0
    totals ≠ [] ∧ (∀ total ∈ totals, |total| ≤ 2 ^ 53) ∧
      ∃ summary, ofTotals totals = .ok (some summary) ∧
        ∃ least mean greatest : ℚ,
          shown? "min:" summary.lines = some least ∧
          shown? "mean:" summary.lines = some mean ∧
          shown? "max:" summary.lines = some greatest ∧
          least ≤ mean ∧ mean ≤ greatest := by
  intro totals
  have hne : totals ≠ [] := List.cons_ne_nil _ _
  have hrange : ∀ total ∈ totals, |total| ≤ 2 ^ 53 := by
    intro total htotal
    rcases List.mem_cons.mp htotal with rfl | hzero
    · decide
    · rw [List.eq_of_mem_replicate hzero]
      decide
  obtain ⟨summary, hfound, hshown, -⟩ :=
    printed_mean_between_extremes hne hrange
  exact ⟨hne, hrange, summary, hfound, hshown⟩

end Summary

end TabletopDice
