import TabletopDice.Number.HalfEven
import Mathlib.Tactic

/-!
# The nearest integer

What it is to round a number to the nearest integer, a half going to the even
neighbour, is stated here over the rational numbers and without a quotient and
a remainder.  Rounding in this sense is unique and monotone, and leaves the
integers alone; and it is what the rounded quotient does.
-/

namespace TabletopDice.Number

/-- An integer that is at most a half away, and even if it is a half away. -/
structure IsHalfEven (n : ℕ) (x : ℚ) : Prop where
  near : |(n : ℚ) - x| ≤ 1 / 2
  even : |(n : ℚ) - x| = 1 / 2 → Even n

theorem isHalfEven_natCast (n : ℕ) : IsHalfEven n n where
  near := by norm_num
  even heq := by norm_num at heq

theorem one_le_abs_add_abs {k n : ℕ} (hne : k ≠ n) (x : ℚ) :
    1 ≤ |(k : ℚ) - x| + |(n : ℚ) - x| := by
  have hapart : (1 : ℤ) ≤ |(k : ℤ) - n| :=
    Int.one_le_abs (sub_ne_zero.mpr (Nat.cast_injective.ne hne))
  calc
    (1 : ℚ) ≤ |(k : ℚ) - n| := by exact_mod_cast hapart
    _ = |((k : ℚ) - x) - ((n : ℚ) - x)| := by ring_nf
    _ ≤ |(k : ℚ) - x| + |(n : ℚ) - x| := abs_sub _ _

namespace IsHalfEven

variable {m n : ℕ} {x y : ℚ}

theorem nearest (hn : IsHalfEven n x) (k : ℕ) :
    |(n : ℚ) - x| ≤ |(k : ℚ) - x| := by
  by_cases heq : k = n
  · rw [heq]
  · have hapart := one_le_abs_add_abs heq x
    have hnear := hn.near
    linarith

theorem even_of_tie (hn : IsHalfEven n x) {k : ℕ} (hne : k ≠ n)
    (htie : |(n : ℚ) - x| = |(k : ℚ) - x|) : Even n := by
  have hapart := one_le_abs_add_abs hne x
  have hnear := hn.near
  exact hn.even (by linarith)

theorem le_of_le (hm : IsHalfEven m x) (hn : IsHalfEven n y) (hxy : x ≤ y) :
    m ≤ n := by
  by_contra hgreater
  have hsucc : (n : ℚ) + 1 ≤ m := by exact_mod_cast not_le.mp hgreater
  have hupper := (abs_le.mp hm.near).2
  have hlower := (abs_le.mp hn.near).1
  -- Two integers in the wrong order are both a half away from one number, and
  -- cannot both be even.
  have hx : x = m - 1 / 2 := by linarith
  have hy : y = n + 1 / 2 := by linarith
  have hmEven : Even m := hm.even (by rw [hx]; norm_num)
  have hnEven : Even n := hn.even (by rw [hy]; norm_num)
  have hnext : m = n + 1 := by
    have hcast : (m : ℚ) = n + 1 := by linarith
    exact_mod_cast hcast
  rw [hnext] at hmEven
  exact Nat.even_add_one.mp hmEven hnEven

theorem eq_natCast (hn : IsHalfEven n x) {k : ℕ} (hx : x = k) : n = k := by
  subst x
  exact le_antisymm (hn.le_of_le (isHalfEven_natCast k) le_rfl)
    ((isHalfEven_natCast k).le_of_le hn le_rfl)

end IsHalfEven

theorem isHalfEven_roundQuotient (a : ℕ) {b : ℕ} (hb : 0 < b) :
    IsHalfEven (roundQuotient a b) (a / b) := by
  have hbq : (0 : ℚ) < b := by exact_mod_cast hb
  have hquotient : (a : ℚ) / b = (a / b : ℕ) + (a % b : ℕ) / b := by
    have hdivision : (b * (a / b : ℕ) + (a % b : ℕ) : ℚ) = a := by
      exact_mod_cast Nat.div_add_mod a b
    field_simp
    linarith
  have hpart : (0 : ℚ) ≤ (a % b : ℕ) / b := by positivity
  have hhalf {c : ℚ} : c / b = 1 / 2 ↔ 2 * c = b := by
    rw [div_eq_iff hbq.ne']
    constructor <;> intro h <;> linarith
  unfold roundQuotient
  split
  next hdown =>
    have hle : 2 * (a % b) ≤ b := by omega
    have hdistance : |((a / b : ℕ) : ℚ) - a / b| = (a % b : ℕ) / b := by
      rw [hquotient, sub_add_cancel_left, abs_neg, abs_of_nonneg hpart]
    constructor
    · rw [hdistance, div_le_iff₀ hbq]
      have hcast : (2 : ℚ) * (a % b : ℕ) ≤ b := by exact_mod_cast hle
      linarith
    · intro heq
      rw [hdistance, hhalf] at heq
      have hexact : 2 * (a % b) = b := by exact_mod_cast heq
      rw [Nat.even_iff]
      omega
  next hup =>
    have hle : b ≤ 2 * (a % b) := by omega
    have hlt : a % b < b := Nat.mod_lt a hb
    have hltq : ((a % b : ℕ) : ℚ) / b < 1 := by
      rw [div_lt_one hbq]
      exact_mod_cast hlt
    have hdistance :
        |((a / b + 1 : ℕ) : ℚ) - a / b| = 1 - (a % b : ℕ) / b := by
      rw [hquotient, Nat.cast_add, Nat.cast_one, add_sub_add_left_eq_sub,
        abs_of_pos (by linarith)]
    constructor
    · rw [hdistance, sub_le_comm, le_div_iff₀ hbq]
      have hcast : (b : ℚ) ≤ 2 * (a % b : ℕ) := by exact_mod_cast hle
      linarith
    · intro heq
      rw [hdistance] at heq
      have hhalfway : ((a % b : ℕ) : ℚ) / b = 1 / 2 := by linarith
      rw [hhalf] at hhalfway
      have hexact : 2 * (a % b) = b := by exact_mod_cast hhalfway
      rw [Nat.even_iff]
      omega

end TabletopDice.Number
