import TabletopDice.Number.Binary64
import TabletopDice.Proofs.HalfEven

/-!
# Codes and aligned magnitudes

Codes are in the order of the magnitudes that they stand for, so that a carry
out of the significand is the next code.  A quotient is aligned to 53 binary
digits by its bit length and rounded there; its code is then the nearest, no
matter which exponents the other numbers have, and it reaches infinity half a
unit after the last finite number.
-/

namespace TabletopDice.Number.Binary64

/-! ## Codes and magnitudes -/

/-- The digits of a magnitude, with the leading one that its code leaves out. -/
def significandOf (code : ℕ) : ℕ :=
  if code / binade = 0 then code % binade else binade + code % binade

/-- How often the smallest unit is doubled to give the unit of the last digit. -/
def shiftOf (code : ℕ) : ℕ :=
  code / binade - 1

theorem shiftOf_mul_binade_add (code : ℕ) :
    shiftOf code * binade + significandOf code = code := by
  unfold shiftOf significandOf binade
  split <;> omega

theorem significandOf_lt (code : ℕ) : significandOf code < 2 ^ 53 := by
  unfold significandOf binade
  split <;> omega

theorem shiftOf_eq_zero_or_le (code : ℕ) :
    shiftOf code = 0 ∨ 2 ^ 52 ≤ significandOf code := by
  unfold shiftOf significandOf binade
  split <;> omega

theorem even_significandOf_iff (code : ℕ) :
    Even (significandOf code) ↔ Even code := by
  unfold significandOf binade
  simp only [Nat.even_iff]
  split <;> omega

theorem shiftOf_le {code : ℕ} (hfinite : code < infinityCode) :
    shiftOf code ≤ 2045 := by
  unfold infinityCode at hfinite
  unfold shiftOf binade
  omega

theorem unitsOf_add {shift m : ℕ} (hm : m ≤ 2 ^ 53)
    (hfull : shift = 0 ∨ 2 ^ 52 ≤ m) :
    unitsOf (shift * binade + m) = m * 2 ^ shift := by
  have hbinade : binade = 2 ^ 52 := rfl
  unfold unitsOf
  dsimp only
  rw [hbinade]
  rcases lt_or_ge m (2 ^ 52) with hsubnormal | hnormal
  · obtain rfl : shift = 0 := by omega
    have hdiv : (0 * 2 ^ 52 + m) / 2 ^ 52 = 0 := by omega
    have hmod : (0 * 2 ^ 52 + m) % 2 ^ 52 = m := by omega
    rw [if_pos hdiv, hmod, pow_zero, Nat.mul_one]
  rcases hm.lt_or_eq with hlt | rfl
  · have hdiv : (shift * 2 ^ 52 + m) / 2 ^ 52 = shift + 1 := by omega
    have hmod : (shift * 2 ^ 52 + m) % 2 ^ 52 = m - 2 ^ 52 := by omega
    rw [hdiv, hmod, if_neg (Nat.succ_ne_zero shift), Nat.add_sub_cancel,
      Nat.shiftLeft_eq, Nat.add_sub_of_le hnormal]
  · -- One carried over has the first code of the next exponent.
    have hdiv : (shift * 2 ^ 52 + 2 ^ 53) / 2 ^ 52 = shift + 2 := by omega
    have hmod : (shift * 2 ^ 52 + 2 ^ 53) % 2 ^ 52 = 0 := by omega
    rw [hdiv, hmod, if_neg (Nat.succ_ne_zero (shift + 1)), Nat.add_zero,
      Nat.shiftLeft_eq, Nat.add_sub_assoc (by decide), pow_add]
    ring

theorem unitsOf_eq (code : ℕ) :
    unitsOf code = significandOf code * 2 ^ shiftOf code := by
  have hunits := unitsOf_add (significandOf_lt code).le
    (shiftOf_eq_zero_or_le code)
  rwa [shiftOf_mul_binade_add] at hunits

theorem unitsOf_strictMono : StrictMono unitsOf := by
  apply strictMono_nat_of_lt_succ
  intro code
  have hfull := shiftOf_eq_zero_or_le code
  have hnext : unitsOf (shiftOf code * binade + (significandOf code + 1)) =
      (significandOf code + 1) * 2 ^ shiftOf code :=
    unitsOf_add (significandOf_lt code) (hfull.imp_right Nat.le_succ_of_le)
  rw [← Nat.add_assoc, shiftOf_mul_binade_add] at hnext
  rw [unitsOf_eq code]
  calc
    significandOf code * 2 ^ shiftOf code <
        (significandOf code + 1) * 2 ^ shiftOf code :=
      Nat.mul_lt_mul_of_pos_right (Nat.lt_succ_self _) (by positivity)
    _ = unitsOf (code + 1) := hnext.symm

/-! ## Magnitudes that are aligned and rounded -/

/-- A magnitude in units, aligned to 53 digits, or to fewer at the smallest
unit, and rounded there. -/
structure Aligned (y : ℚ) (shift m : ℕ) : Prop where
  lower : shift = 0 ∨ 2 ^ 52 * 2 ^ shift ≤ y
  upper : y < 2 ^ 53 * 2 ^ shift
  halfEven : IsHalfEven m (y / 2 ^ shift)

namespace Aligned

variable {y z : ℚ} {shift shift' m n : ℕ}

theorem le_two_pow (hy : Aligned y shift m) : m ≤ 2 ^ 53 := by
  refine hy.halfEven.le_of_le (isHalfEven_natCast (2 ^ 53)) ?_
  rw [div_le_iff₀ (by positivity)]
  exact_mod_cast hy.upper.le

theorem eq_zero_or_le (hy : Aligned y shift m) :
    shift = 0 ∨ 2 ^ 52 ≤ m := by
  refine hy.lower.imp_right fun hlower => ?_
  refine (isHalfEven_natCast (2 ^ 52)).le_of_le hy.halfEven ?_
  rw [le_div_iff₀ (by positivity)]
  exact_mod_cast hlower

theorem unitsOf_eq (hy : Aligned y shift m) :
    unitsOf (shift * binade + m) = m * 2 ^ shift :=
  unitsOf_add hy.le_two_pow hy.eq_zero_or_le

theorem even_code_iff : Even (shift * binade + m) ↔ Even m := by
  unfold binade
  simp only [Nat.even_iff]
  omega

theorem two_pow_mul_le {s t : ℕ} (hst : s < t) :
    (2 : ℚ) ^ 53 * 2 ^ s ≤ 2 ^ 52 * 2 ^ t := by
  have hpow : (2 : ℚ) ^ (s + 1) ≤ 2 ^ t := pow_le_pow_right₀ one_le_two hst
  rw [pow_succ'] at hpow
  linarith

theorem le_of_lt_shift (hy : Aligned y shift m) {t : ℕ} (ht : t < shift) :
    2 ^ 53 * 2 ^ t ≤ y :=
  (two_pow_mul_le ht).trans (hy.lower.resolve_left (by omega))

theorem code_le_of_shift_lt (hy : Aligned y shift m) {t : ℕ}
    (ht : shift < t) : shift * binade + m ≤ t * binade + 2 ^ 52 := by
  have hm := hy.le_two_pow
  have hbinade : binade = 2 ^ 52 := rfl
  have hstep : (shift + 1) * binade ≤ t * binade :=
    Nat.mul_le_mul_right binade ht
  rw [Nat.add_mul] at hstep
  omega

theorem code_le (hy : Aligned y shift m) (hz : Aligned z shift' n)
    (hyz : y ≤ z) : shift * binade + m ≤ shift' * binade + n := by
  rcases lt_trichotomy shift shift' with hlt | rfl | hgt
  · have hcode := hy.code_le_of_shift_lt hlt
    have hn := hz.eq_zero_or_le
    omega
  · apply Nat.add_le_add_left
    exact hy.halfEven.le_of_le hz.halfEven
      (div_le_div_of_nonneg_right hyz (by positivity))
  · have hlower := hy.le_of_lt_shift hgt
    have hupper := hz.upper
    linarith

/-- Half a unit below `2 ^ 53` is a tie, and it carries. -/
theorem aligned_carry (top : ℕ) :
    Aligned ((2 ^ 53 - 1 / 2) * 2 ^ top) top (2 ^ 53) := by
  have hpos : (0 : ℚ) < 2 ^ top := by positivity
  constructor
  · exact .inr (mul_le_mul_of_nonneg_right (by norm_num) hpos.le)
  · exact mul_lt_mul_of_pos_right (by norm_num) hpos
  · rw [mul_div_cancel_right₀ _ hpos.ne']
    constructor
    · norm_num
    · intro _
      decide

theorem code_lt_iff (hy : Aligned y shift m) (top : ℕ) :
    shift * binade + m < top * binade + 2 ^ 53 ↔
      y < (2 ^ 53 - 1 / 2) * 2 ^ top := by
  have hpos : (0 : ℚ) < 2 ^ top := by positivity
  constructor
  · intro hcode
    by_contra hlarge
    have hcarry := (aligned_carry top).code_le hy (not_lt.mp hlarge)
    omega
  · intro hsmall
    rcases lt_trichotomy shift top with hlt | rfl | hgt
    · have hcode := hy.code_le_of_shift_lt hlt
      omega
    · rw [← div_lt_iff₀ hpos] at hsmall
      have hnear := (abs_le.mp hy.halfEven.near).2
      have hmq : (m : ℚ) < 2 ^ 53 := by linarith
      have hlt : m < 2 ^ 53 := by exact_mod_cast hmq
      omega
    · have hlower := hy.le_of_lt_shift hgt
      linarith

theorem abs_sub_multiple (k shift : ℕ) (y : ℚ) :
    |(k * 2 ^ shift : ℚ) - y| = |(k : ℚ) - y / 2 ^ shift| * 2 ^ shift := by
  have hunit : (0 : ℚ) < 2 ^ shift := by positivity
  rw [← abs_of_pos hunit, ← abs_mul, abs_of_pos hunit, sub_mul,
    div_mul_cancel₀ y hunit.ne']

theorem abs_sub_le_multiple (hy : Aligned y shift m) (k : ℕ) :
    |(m * 2 ^ shift : ℚ) - y| ≤ |(k * 2 ^ shift : ℚ) - y| := by
  rw [abs_sub_multiple, abs_sub_multiple]
  exact mul_le_mul_of_nonneg_right (hy.halfEven.nearest k) (by positivity)

theorem abs_sub_lt_of_lt_shift (hy : Aligned y shift m) {k t : ℕ}
    (hk : k < 2 ^ 53) (ht : t < shift) :
    |(m * 2 ^ shift : ℚ) - y| < |(k * 2 ^ t : ℚ) - y| := by
  have hlower : (2 : ℚ) ^ 52 * 2 ^ shift ≤ y :=
    hy.lower.resolve_left (by omega)
  -- A number with a smaller unit is further below than the least one of 53
  -- digits, which is a multiple of the unit.
  have hsmall : (k * 2 ^ t : ℚ) < 2 ^ 52 * 2 ^ shift :=
    calc
      (k * 2 ^ t : ℚ) < 2 ^ 53 * 2 ^ t :=
        mul_lt_mul_of_pos_right (by exact_mod_cast hk) (by positivity)
      _ ≤ 2 ^ 52 * 2 ^ shift := two_pow_mul_le ht
  calc
    |(m * 2 ^ shift : ℚ) - y| ≤ |((2 ^ 52 : ℕ) * 2 ^ shift : ℚ) - y| :=
      hy.abs_sub_le_multiple (2 ^ 52)
    _ = y - 2 ^ 52 * 2 ^ shift := by
      rw [Nat.cast_pow, Nat.cast_ofNat, abs_sub_comm,
        abs_of_nonneg (sub_nonneg.mpr hlower)]
    _ < y - k * 2 ^ t := sub_lt_sub_left hsmall y
    _ ≤ |(k * 2 ^ t : ℚ) - y| := by
      rw [abs_sub_comm]
      exact le_abs_self _

theorem mul_two_pow_eq {t : ℕ} (k : ℕ) (ht : shift ≤ t) :
    (k * 2 ^ t : ℚ) = (k * 2 ^ (t - shift) : ℕ) * 2 ^ shift := by
  rw [Nat.cast_mul, Nat.cast_pow, Nat.cast_ofNat, mul_assoc, ← pow_add,
    Nat.sub_add_cancel ht]

theorem abs_sub_le (hy : Aligned y shift m) {k t : ℕ} (hk : k < 2 ^ 53) :
    |(m * 2 ^ shift : ℚ) - y| ≤ |(k * 2 ^ t : ℚ) - y| := by
  rcases lt_or_ge t shift with hlt | hge
  · exact (hy.abs_sub_lt_of_lt_shift hk hlt).le
  · rw [mul_two_pow_eq k hge]
    exact hy.abs_sub_le_multiple _

theorem even_of_tie (hy : Aligned y shift m) {k t : ℕ} (hk : k < 2 ^ 53)
    (hne : (k * 2 ^ t : ℚ) ≠ m * 2 ^ shift)
    (htie : |(m * 2 ^ shift : ℚ) - y| = |(k * 2 ^ t : ℚ) - y|) : Even m := by
  have hge : shift ≤ t := by
    by_contra hlt
    exact (hy.abs_sub_lt_of_lt_shift hk (not_le.mp hlt)).ne htie
  rw [mul_two_pow_eq k hge] at hne htie
  rw [abs_sub_multiple, abs_sub_multiple] at htie
  refine hy.halfEven.even_of_tie (k := k * 2 ^ (t - shift)) ?_
    (mul_right_cancel₀ (by positivity) htie)
  rintro rfl
  exact hne rfl

end Aligned

theorem lt_two_pow_bitLength (n : ℕ) : n < 2 ^ bitLength n := by
  unfold bitLength
  split
  next hzero => simp [hzero]
  next => exact Nat.lt_log2_self

theorem two_pow_le_of_bitLength_eq {n k : ℕ} (hn : bitLength n = k + 1) :
    2 ^ k ≤ n := by
  unfold bitLength at hn
  split at hn
  next => cases hn
  next hne =>
    obtain rfl : n.log2 = k := Nat.succ.inj hn
    exact Nat.log2_self_le hne

theorem natCast_shiftLeft (n k : ℕ) : ((n <<< k : ℕ) : ℚ) = n * 2 ^ k := by
  rw [Nat.shiftLeft_eq, Nat.cast_mul, Nat.cast_pow, Nat.cast_ofNat]

/-- The bit length of the whole part fixes the alignment of a quotient. -/
theorem aligned_quotient (scaled : ℕ) {b : ℕ} (hb : 0 < b) :
    let shift := bitLength (scaled / b) - 53
    Aligned (scaled / b) shift (roundQuotient scaled (b <<< shift)) := by
  intro shift
  have hbq : (0 : ℚ) < b := by exact_mod_cast hb
  have hwhole : ((scaled / b : ℕ) : ℚ) ≤ scaled / b := Nat.cast_div_le
  have hnext : (scaled / b : ℚ) < (scaled / b : ℕ) + 1 := by
    rw [div_lt_iff₀ hbq]
    exact_mod_cast Nat.lt_mul_of_div_lt (Nat.lt_succ_self _) hb
  have hupper : scaled / b + 1 ≤ 2 ^ 53 * 2 ^ shift :=
    calc
      scaled / b + 1 ≤ 2 ^ bitLength (scaled / b) := lt_two_pow_bitLength _
      _ ≤ 2 ^ (53 + shift) := Nat.pow_le_pow_right (by decide) (by omega)
      _ = 2 ^ 53 * 2 ^ shift := pow_add 2 53 shift
  constructor
  · rcases Nat.eq_zero_or_pos shift with hzero | hpos
    · exact .inl hzero
    · have hlength : bitLength (scaled / b) = 52 + shift + 1 := by omega
      have hlower := two_pow_le_of_bitLength_eq hlength
      rw [pow_add] at hlower
      refine .inr (le_trans ?_ hwhole)
      exact_mod_cast hlower
  · refine hnext.trans_le ?_
    exact_mod_cast hupper
  · have hwidth : 0 < b <<< shift := by
      rw [Nat.shiftLeft_eq]
      positivity
    have hhalf := isHalfEven_roundQuotient scaled hwidth
    rwa [natCast_shiftLeft, ← div_div] at hhalf

theorem exists_aligned_nearestCode (a : ℕ) {b : ℕ} (hb : 0 < b) :
    ∃ shift m, nearestCode a b = shift * binade + m ∧
      Aligned (a / b * 2 ^ 1074) shift m := by
  refine ⟨_, _, rfl, ?_⟩
  rw [div_mul_eq_mul_div, ← natCast_shiftLeft]
  exact aligned_quotient _ hb

end TabletopDice.Number.Binary64
