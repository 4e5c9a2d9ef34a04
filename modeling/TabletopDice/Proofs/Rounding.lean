import TabletopDice.Proofs.Alignment

/-!
# Rounding to binary64

A binary64 number is `m * 2 ^ e` with at most 53 binary digits in `m` and an
exponent in range.  What it is to round a rational number to one of these is
stated without codes: no such number is nearer, and the significand is even if
another is as near.  That leaves one number only, and it is the one that the
rounded quotient gives.
-/

namespace TabletopDice.Number.Binary64

/-! ## Numbers -/

/-- The numbers with at most 53 binary digits and an exponent in range. -/
def Representable (r : ℚ) : Prop :=
  ∃ m e : ℤ, |m| < 2 ^ 53 ∧ -1074 ≤ e ∧ e ≤ 971 ∧ r = m * 2 ^ e

def sign (x : Binary64) : ℤ :=
  if x.negative then -1 else 1

def significand (x : Binary64) : ℕ :=
  significandOf x.code

def exponent (x : Binary64) : ℤ :=
  shiftOf x.code - 1074

/-- The value of a finite number. -/
def toRat (x : Binary64) : ℚ :=
  (x.sign * x.significand : ℤ) * 2 ^ x.exponent

theorem representable_toRat {x : Binary64} (hfinite : x.isFinite = true) :
    Representable x.toRat := by
  have hcode : x.code < infinityCode := by simpa [isFinite] using hfinite
  have hshift := shiftOf_le hcode
  refine ⟨x.sign * x.significand, x.exponent, ?_, ?_, ?_, rfl⟩
  · have hsign : |x.sign| = 1 := by
      unfold sign
      split <;> rfl
    rw [abs_mul, hsign, one_mul, Nat.abs_cast]
    exact_mod_cast significandOf_lt x.code
  · unfold exponent
    omega
  · unfold exponent
    omega

theorem representable_intCast {n : ℤ} (hn : |n| ≤ 2 ^ 53) :
    Representable n := by
  rcases hn.lt_or_eq with hlt | heq
  · exact ⟨n, 0, hlt, by decide, by decide, by simp⟩
  -- The first integer of 54 digits is an even one, and half of it fits.
  have hhalf (sign : ℤ) (hsign : |sign| = 1) :
      Representable (sign * 2 ^ 53 : ℤ) := by
    refine ⟨sign * 2 ^ 52, 1, ?_, by decide, by decide, ?_⟩
    · rw [abs_mul, hsign]
      norm_num
    · push_cast
      ring
  rcases eq_or_eq_neg_of_abs_eq heq with rfl | rfl
  · exact hhalf 1 rfl
  · exact hhalf (-1) rfl

theorem representable_zero : Representable 0 := by
  simpa using representable_intCast (n := 0) (by norm_num)

theorem two_zpow_mul_two_pow {e : ℤ} {unit t : ℕ} (he : e + unit = t) :
    (2 : ℚ) ^ e * 2 ^ unit = 2 ^ t := by
  rw [← zpow_natCast, ← zpow_natCast, ← zpow_add₀ two_ne_zero, he]

theorem abs_toRat (x : Binary64) :
    |x.toRat| = x.significand * 2 ^ x.exponent := by
  have hpos : (0 : ℚ) < 2 ^ x.exponent := by positivity
  unfold toRat sign
  rw [abs_mul, abs_of_pos hpos]
  split <;> simp

theorem abs_toRat_mul (x : Binary64) : |x.toRat| * 2 ^ 1074 = x.units := by
  have hexponent : x.exponent + (1074 : ℕ) = shiftOf x.code :=
    Int.sub_add_cancel _ _
  rw [abs_toRat, mul_assoc, two_zpow_mul_two_pow hexponent]
  exact_mod_cast (unitsOf_eq x.code).symm

theorem abs_toRat_lt {x y : Binary64} (hcode : x.code < y.code) :
    |x.toRat| < |y.toRat| := by
  have hunit : (0 : ℚ) < 2 ^ 1074 := by positivity
  apply lt_of_mul_lt_mul_right _ hunit.le
  rw [abs_toRat_mul, abs_toRat_mul]
  exact_mod_cast unitsOf_strictMono hcode

theorem Representable.exists_units {r : ℚ} (hr : Representable r) :
    ∃ k t : ℕ, k < 2 ^ 53 ∧ |r| * 2 ^ 1074 = k * 2 ^ t := by
  obtain ⟨m, e, hm, hlow, -, rfl⟩ := hr
  have hpos : (0 : ℚ) < 2 ^ e := by positivity
  have hshift : e + (1074 : ℕ) = (e + 1074).toNat := by omega
  refine ⟨m.natAbs, (e + 1074).toNat, by zify; exact hm, ?_⟩
  rw [abs_mul, abs_of_pos hpos, mul_assoc, two_zpow_mul_two_pow hshift,
    Nat.cast_natAbs, Int.cast_abs]

theorem toRat_of_negative {x : Binary64} (hx : x.negative = true) :
    x.toRat = -|x.toRat| := by
  rw [abs_toRat, toRat, sign, if_pos hx]
  push_cast
  ring

theorem toRat_of_not_negative {x : Binary64} (hx : ¬ x.negative = true) :
    x.toRat = |x.toRat| := by
  rw [abs_toRat, toRat, sign, if_neg hx]
  push_cast
  ring

theorem abs_toRat_sub {x : Binary64} {q : ℚ}
    (hsign : x.negative = true ↔ q < 0) :
    |x.toRat - q| = |(|x.toRat| - |q|)| := by
  by_cases hq : q < 0
  · have hx := toRat_of_negative (hsign.mpr hq)
    rw [abs_of_neg hq, ← abs_neg]
    congr 1
    linarith
  · have hx := toRat_of_not_negative (mt hsign.mp hq)
    rw [abs_of_nonneg (not_lt.mp hq), ← hx]

theorem abs_sub_mul_two_pow (p q : ℚ) (unit : ℕ) :
    |p - q| * 2 ^ unit = |p * 2 ^ unit - q * 2 ^ unit| := by
  have hpos : (0 : ℚ) < 2 ^ unit := by positivity
  rw [← sub_mul, abs_mul, abs_of_pos hpos]

theorem abs_lt_of_abs_le {q : ℚ} (hq : |q| ≤ 2 ^ 54 - 2) :
    |q| < 2 ^ 1024 - 2 ^ 970 := by
  have hfactor (n : ℕ) : (2 : ℚ) ^ (n + 54) - 2 ^ n = (2 ^ 54 - 1) * 2 ^ n := by
    ring
  have hone : (1 : ℚ) ≤ 2 ^ 970 := one_le_pow₀ one_le_two
  calc
    |q| < (2 ^ 54 - 1) * 1 := by linarith
    _ ≤ (2 ^ 54 - 1) * 2 ^ 970 :=
      mul_le_mul_of_nonneg_left hone (by norm_num)
    _ = 2 ^ 1024 - 2 ^ 970 := (hfactor 970).symm

/-! ## Rounding -/

/-- A finite number to which a rational number is rounded. -/
structure IsRounding (x : Binary64) (q : ℚ) : Prop where
  inRange : |q| < 2 ^ 1024 - 2 ^ 970
  finite : x.isFinite = true
  negative_iff : x.negative = true ↔ q < 0
  nearest : ∀ r, Representable r → |x.toRat - q| ≤ |r - q|
  even : ∀ r, Representable r → r ≠ x.toRat →
    |x.toRat - q| = |r - q| → Even x.significand

namespace Aligned

variable {x : Binary64} {q r : ℚ} {shift m : ℕ}

theorem abs_toRat_mul {y : ℚ} (hy : Aligned y shift m)
    (hcode : x.code = shift * binade + m) :
    |x.toRat| * 2 ^ 1074 = m * 2 ^ shift := by
  rw [Binary64.abs_toRat_mul, units, hcode]
  exact_mod_cast hy.unitsOf_eq

theorem nearest (hy : Aligned (|q| * 2 ^ 1074) shift m)
    (hcode : x.code = shift * binade + m) (hsign : x.negative = true ↔ q < 0)
    (hr : Representable r) : |x.toRat - q| ≤ |(|r| - |q|)| := by
  have hunit : (0 : ℚ) < 2 ^ 1074 := by positivity
  obtain ⟨k, t, hk, hscaled⟩ := hr.exists_units
  rw [abs_toRat_sub hsign]
  apply le_of_mul_le_mul_right _ hunit
  rw [abs_sub_mul_two_pow, abs_sub_mul_two_pow, hy.abs_toRat_mul hcode,
    hscaled]
  exact hy.abs_sub_le hk

theorem even_significand (hy : Aligned (|q| * 2 ^ 1074) shift m)
    (hcode : x.code = shift * binade + m) (hsign : x.negative = true ↔ q < 0)
    (hr : Representable r) (hne : |r| ≠ |x.toRat|)
    (htie : |x.toRat - q| = |(|r| - |q|)|) : Even x.significand := by
  have hunit : (2 : ℚ) ^ 1074 ≠ 0 := by positivity
  have hx := hy.abs_toRat_mul hcode
  obtain ⟨k, t, hk, hscaled⟩ := hr.exists_units
  have hm : Even m := by
    apply hy.even_of_tie hk (t := t)
    · rw [← hscaled, ← hx]
      exact fun heq => hne (mul_right_cancel₀ hunit heq)
    · rw [← hscaled, ← hx, ← abs_sub_mul_two_pow, ← abs_sub_mul_two_pow,
        ← abs_toRat_sub hsign, htie]
  unfold significand
  rwa [even_significandOf_iff, hcode, even_code_iff]

end Aligned

theorem abs_ne_abs_of_tie {a r q : ℚ} (hne : r ≠ a) (hzero : q = 0 → a = 0)
    (htie : |a - q| = |r - q|) : |r| ≠ |a| := by
  intro heq
  -- The mirror image of a number is as near only to zero, or if it is zero.
  obtain rfl : r = -a := (abs_eq_abs.mp heq).resolve_left hne
  have ha : a = 0 := by
    rcases abs_eq_abs.mp htie with hself | hopposite
    · linarith
    · exact hzero (by linarith)
  exact hne (by rw [ha, neg_zero])

theorem isRounding_of_aligned {x : Binary64} {q : ℚ} {shift m : ℕ}
    (hrange : |q| < 2 ^ 1024 - 2 ^ 970) (hfinite : x.isFinite = true)
    (hsign : x.negative = true ↔ q < 0) (hcode : x.code = shift * binade + m)
    (hy : Aligned (|q| * 2 ^ 1074) shift m) : x.IsRounding q where
  inRange := hrange
  finite := hfinite
  negative_iff := hsign
  nearest r hr :=
    (hy.nearest hcode hsign hr).trans (abs_abs_sub_abs_le r q)
  even r hr hne htie := by
    have hzero : q = 0 → x.toRat = 0 := by
      rintro rfl
      simpa using hy.nearest hcode hsign representable_zero
    have hequal : |x.toRat - q| = |(|r| - |q|)| := by
      apply le_antisymm (hy.nearest hcode hsign hr)
      rw [htie]
      exact abs_abs_sub_abs_le r q
    exact hy.even_significand hcode hsign hr
      (abs_ne_abs_of_tie hne hzero htie) hequal

namespace IsRounding

variable {x y : Binary64} {p q : ℚ}

theorem not_code_lt (hx : x.IsRounding q) (hy : y.IsRounding q) :
    ¬ x.code < y.code := by
  intro hlt
  have hxr := representable_toRat hx.finite
  have hyr := representable_toRat hy.finite
  have hmagnitudes := abs_toRat_lt hlt
  have hne : x.toRat ≠ y.toRat := fun heq => hmagnitudes.ne (by rw [heq])
  have htie : |x.toRat - q| = |y.toRat - q| :=
    le_antisymm (hx.nearest _ hyr) (hy.nearest _ hxr)
  have hxEven : Even x.code :=
    (even_significandOf_iff _).mp (hx.even _ hyr hne.symm htie)
  have hyEven : Even y.code :=
    (even_significandOf_iff _).mp (hy.even _ hxr hne htie.symm)
  -- Two even codes have another between them, and its number is nearer.
  have hbetween : x.code + 1 < y.code := by
    rw [Nat.even_iff] at hxEven hyEven
    omega
  let z : Binary64 := ⟨x.negative, x.code + 1, hbetween.trans y.code_lt⟩
  have hzFinite : z.isFinite = true := by
    have hyFinite := hy.finite
    simp only [isFinite, decide_eq_true_eq] at hyFinite ⊢
    exact hbetween.trans hyFinite
  have hxz : |x.toRat| < |z.toRat| := abs_toRat_lt (Nat.lt_succ_self _)
  have hzy : |z.toRat| < |y.toRat| := abs_toRat_lt hbetween
  have hnear := hx.nearest _ (representable_toRat hzFinite)
  rw [abs_toRat_sub hx.negative_iff, abs_toRat_sub hy.negative_iff] at htie
  have hzSub : |z.toRat - q| = |(|z.toRat| - |q|)| :=
    abs_toRat_sub hx.negative_iff
  rw [abs_toRat_sub hx.negative_iff, hzSub] at hnear
  have hcloser : |(|z.toRat| - |q|)| < |(|x.toRat| - |q|)| := by
    rcases abs_eq_abs.mp htie with hsame | hopposite
    · linarith
    · rw [abs_of_neg (by linarith : |x.toRat| - |q| < 0), abs_lt]
      constructor <;> linarith
  exact hcloser.not_ge hnear

theorem unique (hx : x.IsRounding q) (hy : y.IsRounding q) : x = y := by
  have hcode : x.code = y.code :=
    le_antisymm (not_lt.mp (not_code_lt hy hx)) (not_lt.mp (not_code_lt hx hy))
  have hnegative : x.negative = y.negative :=
    Bool.eq_iff_iff.mpr (hx.negative_iff.trans hy.negative_iff.symm)
  cases x
  cases y
  subst hcode hnegative
  rfl

theorem le_toRat (hx : x.IsRounding q) {r : ℚ} (hr : Representable r)
    (hrq : r ≤ q) : r ≤ x.toRat := by
  by_contra hlt
  have hnear := hx.nearest r hr
  rw [abs_of_neg (by linarith), abs_of_nonpos (by linarith)] at hnear
  linarith

theorem toRat_le (hx : x.IsRounding q) {r : ℚ} (hr : Representable r)
    (hqr : q ≤ r) : x.toRat ≤ r := by
  by_contra hlt
  have hnear := hx.nearest r hr
  rw [abs_of_pos (by linarith), abs_of_nonneg (by linarith)] at hnear
  linarith

theorem toRat_eq (hx : x.IsRounding q) (hq : Representable q) :
    x.toRat = q :=
  le_antisymm (hx.toRat_le hq le_rfl) (hx.le_toRat hq le_rfl)

theorem toRat_mono (hx : x.IsRounding p) (hy : y.IsRounding q)
    (hpq : p ≤ q) : x.toRat ≤ y.toRat := by
  rcases hpq.lt_or_eq with hlt | rfl
  · by_contra hgreater
    have hxNear := hx.nearest _ (representable_toRat hy.finite)
    have hyNear := hy.nearest _ (representable_toRat hx.finite)
    rw [← sq_le_sq] at hxNear hyNear
    -- Halfway between the two numbers is not above `p` and not below `q`.
    have hp : x.toRat + y.toRat ≤ 2 * p := by nlinarith
    have hq : 2 * q ≤ x.toRat + y.toRat := by nlinarith
    linarith
  · rw [hx.unique hy]

end IsRounding

/-! ## The rounded quotient -/

theorem nearestCode_lt_infinityCode_iff {a b : ℕ} (hb : 0 < b) :
    nearestCode a b < infinityCode ↔ (a / b : ℚ) < 2 ^ 1024 - 2 ^ 970 := by
  have hunit : (0 : ℚ) < 2 ^ 1074 := by positivity
  have hpow (n u : ℕ) : (2 ^ 53 - 1 / 2 : ℚ) * 2 ^ (n + u + 1) =
      (2 ^ (n + 54) - 2 ^ n) * 2 ^ u := by ring
  have htop : (2 ^ 53 - 1 / 2 : ℚ) * 2 ^ 2045 =
      (2 ^ 1024 - 2 ^ 970) * 2 ^ 1074 := hpow 970 1074
  have hinfinity : infinityCode = 2045 * binade + 2 ^ 53 := rfl
  obtain ⟨shift, m, heq, hy⟩ := exists_aligned_nearestCode a hb
  rw [heq, hinfinity, hy.code_lt_iff, htop, mul_lt_mul_iff_left₀ hunit]

theorem abs_div_natCast (num : ℤ) (den : ℕ) :
    |(num / den : ℚ)| = num.natAbs / den := by
  rw [abs_div, Nat.abs_cast, Nat.cast_natAbs, Int.cast_abs]

variable {num : ℤ} {den : ℕ} {x : Binary64}

theorem isRounding_of_ofQuotient? (hden : 0 < den)
    (hx : ofQuotient? num den = some x) : x.IsRounding (num / den) := by
  have hdenq : (0 : ℚ) < den := by exact_mod_cast hden
  unfold ofQuotient? at hx
  dsimp only at hx
  split at hx
  next hfinite =>
    obtain rfl := Option.some.inj hx
    obtain ⟨shift, m, hcode, hy⟩ := exists_aligned_nearestCode num.natAbs hden
    have hrange := (nearestCode_lt_infinityCode_iff hden).mp hfinite
    rw [← abs_div_natCast] at hy hrange
    apply isRounding_of_aligned hrange _ _ hcode hy
    · simpa [isFinite] using hfinite
    · rw [decide_eq_true_eq, div_lt_iff₀ hdenq, zero_mul]
      exact_mod_cast Iff.rfl
  next => cases hx

theorem ofQuotient?_eq_none_iff (hden : 0 < den) :
    ofQuotient? num den = none ↔
      2 ^ 1024 - 2 ^ 970 ≤ |(num / den : ℚ)| := by
  rw [abs_div_natCast, ← not_lt, ← nearestCode_lt_infinityCode_iff hden]
  unfold ofQuotient?
  dsimp only
  split
  next hfinite => simp [hfinite]
  next hinfinite => simp [hinfinite]

/-- The quotient in range is rounded, and to one number only. -/
theorem ofQuotient?_eq_some_iff (hden : 0 < den) :
    ofQuotient? num den = some x ↔ x.IsRounding (num / den) := by
  constructor
  · exact isRounding_of_ofQuotient? hden
  · intro hx
    cases hquotient : ofQuotient? num den with
    | none =>
        have hrange := (ofQuotient?_eq_none_iff hden).mp hquotient
        exact absurd hx.inRange hrange.not_gt
    | some z =>
        rw [(isRounding_of_ofQuotient? hden hquotient).unique hx]

end TabletopDice.Number.Binary64
