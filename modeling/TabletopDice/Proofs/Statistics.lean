import TabletopDice.Proofs.Account
import TabletopDice.Proofs.Rounding

/-!
# Exact statistics

A summary is determined by its totals: their number, their extremes, and the
binary64 number to which their exact mean is rounded.  It is missing just when
that mean is out of range.  Nothing in it depends on the order of the totals,
and since rounding is monotone, the rounded mean stays between the rounded
extremes.
-/

namespace TabletopDice

open Number

namespace Number.Binary64

theorem IsRounding.toBits_eq_zero {x : Binary64} (hx : x.IsRounding 0) :
    x.toBits = 0 := by
  have hzero : x.toRat = 0 := hx.toRat_eq representable_zero
  have hunits := abs_toRat_mul x
  rw [hzero, abs_zero, zero_mul] at hunits
  have hcode : x.code = 0 := by
    apply unitsOf_strictMono.injective
    exact_mod_cast hunits.symm
  have hnegative : x.negative = false := by
    simpa using hx.negative_iff
  rw [toBits, hcode, hnegative]
  rfl

end Number.Binary64

namespace Summary

/-- The mean of some totals before it is rounded. -/
def exactMean (totals : List ℤ) : ℚ :=
  totals.sum / totals.length

variable {totals others : List ℤ} {summary other : Summary}

/-! ## Extremes and the exact mean -/

theorem le_exactMean (hne : totals ≠ []) {bound : ℤ}
    (hbound : ∀ total ∈ totals, bound ≤ total) :
    (bound : ℚ) ≤ exactMean totals := by
  have hlength : (0 : ℚ) < totals.length := by
    exact_mod_cast List.length_pos_iff.mpr hne
  have hsum := List.card_nsmul_le_sum totals bound hbound
  unfold exactMean
  rw [le_div_iff₀ hlength, mul_comm]
  exact_mod_cast (nsmul_eq_mul _ _).symm.trans_le hsum

theorem exactMean_le (hne : totals ≠ []) {bound : ℤ}
    (hbound : ∀ total ∈ totals, total ≤ bound) :
    exactMean totals ≤ bound := by
  have hlength : (0 : ℚ) < totals.length := by
    exact_mod_cast List.length_pos_iff.mpr hne
  have hsum := List.sum_le_card_nsmul totals bound hbound
  unfold exactMean
  rw [div_le_iff₀ hlength, mul_comm]
  exact_mod_cast hsum.trans_eq (nsmul_eq_mul _ _)

theorem exactMean_perm (hperm : totals.Perm others) :
    exactMean totals = exactMean others := by
  unfold exactMean
  rw [hperm.sum_eq, hperm.length_eq]

namespace Covers

theorem ne_nil (hcovers : summary.Covers totals) : totals ≠ [] :=
  List.ne_nil_of_mem hcovers.least_mem

theorem perm (hcovers : summary.Covers totals) (hperm : totals.Perm others) :
    summary.Covers others where
  count := hcovers.count.trans (congrArg Nat.cast hperm.length_eq)
  least_mem := hperm.mem_iff.mp hcovers.least_mem
  least_le total htotal := hcovers.least_le total (hperm.mem_iff.mpr htotal)
  greatest_mem := hperm.mem_iff.mp hcovers.greatest_mem
  le_greatest total htotal :=
    hcovers.le_greatest total (hperm.mem_iff.mpr htotal)

theorem eq_of_mean_eq (hcovers : summary.Covers totals)
    (hother : other.Covers totals) (hmean : summary.mean = other.mean) :
    summary = other := by
  have hcount : summary.count = other.count :=
    hcovers.count.trans hother.count.symm
  have hleast : summary.least = other.least :=
    le_antisymm (hcovers.least_le _ hother.least_mem)
      (hother.least_le _ hcovers.least_mem)
  have hgreatest : summary.greatest = other.greatest :=
    le_antisymm (hother.le_greatest _ hcovers.greatest_mem)
      (hcovers.le_greatest _ hother.greatest_mem)
  cases summary
  cases other
  simp only at hcount hleast hgreatest hmean
  subst hcount hleast hgreatest hmean
  rfl

theorem least_le_exactMean (hcovers : summary.Covers totals) :
    (summary.least : ℚ) ≤ exactMean totals :=
  le_exactMean hcovers.ne_nil hcovers.least_le

theorem exactMean_le_greatest (hcovers : summary.Covers totals) :
    exactMean totals ≤ summary.greatest :=
  exactMean_le hcovers.ne_nil hcovers.le_greatest

end Covers

/-! ## What is summarized -/

theorem ofTotals_cases (hne : totals ≠ []) :
    (ofTotals totals = .error .meanOutOfRange ∧
      2 ^ 1024 - 2 ^ 970 ≤ |exactMean totals|) ∨
    ∃ summary, ofTotals totals = .ok (some summary) ∧
      summary.Covers totals ∧ summary.mean.IsRounding (exactMean totals) := by
  cases totals with
  | nil => exact absurd rfl hne
  | cons first rest =>
      have hlength : 0 < rest.length + 1 := Nat.succ_pos _
      cases hmean : Binary64.ofQuotient? (sum (first :: rest))
          (rest.length + 1) with
      | none =>
          refine .inl ⟨?_, (Binary64.ofQuotient?_eq_none_iff hlength).mp hmean⟩
          rw [ofTotals_cons, hmean]
          rfl
      | some mean =>
          have hfound : ofTotals (first :: rest) = ofMean first rest (some mean) := by
            rw [ofTotals_cons, hmean]
          obtain ⟨summary, hsummary, hcovers⟩ :=
            exists_covers_of_ofTotals_eq_ok hne hfound
          obtain rfl := Option.some.inj hsummary
          exact .inr ⟨_, hfound, hcovers,
            (Binary64.ofQuotient?_eq_some_iff hlength).mp hmean⟩

theorem ofTotals_eq_ok_iff (hne : totals ≠ []) :
    ofTotals totals = .ok (some summary) ↔
      summary.Covers totals ∧ summary.mean.IsRounding (exactMean totals) := by
  rcases ofTotals_cases hne with
    ⟨herror, hrange⟩ | ⟨found, hfound, hcovers, hmean⟩
  · rw [herror]
    constructor
    · intro hok
      cases hok
    · rintro ⟨-, hmean⟩
      exact absurd hmean.inRange hrange.not_gt
  · rw [hfound]
    constructor
    · intro hok
      obtain rfl := Option.some.inj (Except.ok.inj hok)
      exact ⟨hcovers, hmean⟩
    · rintro ⟨hcovers', hmean'⟩
      rw [hcovers.eq_of_mean_eq hcovers' (hmean.unique hmean')]

theorem ofTotals_eq_error_iff (hne : totals ≠ []) {failure : Failure} :
    ofTotals totals = .error failure ↔
      failure = .meanOutOfRange ∧
        2 ^ 1024 - 2 ^ 970 ≤ |exactMean totals| := by
  rcases ofTotals_cases hne with ⟨herror, hrange⟩ | ⟨found, hfound, -, hmean⟩
  · simp [herror, hrange, eq_comm]
  · rw [hfound]
    constructor
    · intro herror
      cases herror
    · rintro ⟨-, hrange⟩
      exact absurd hmean.inRange hrange.not_gt

theorem ofTotals_perm (hperm : totals.Perm others) :
    ofTotals others = ofTotals totals := by
  by_cases hne : totals = []
  · rw [hne] at hperm
    rw [hne, hperm.nil_eq]
  have hothers : others ≠ [] := by
    rintro rfl
    exact hne hperm.eq_nil
  rcases ofTotals_cases hne with
    ⟨herror, hrange⟩ | ⟨summary, hfound, hcovers, hmean⟩
  · rw [herror, ofTotals_eq_error_iff hothers, ← exactMean_perm hperm]
    exact ⟨rfl, hrange⟩
  · rw [hfound, ofTotals_eq_ok_iff hothers, ← exactMean_perm hperm]
    exact ⟨hcovers.perm hperm, hmean⟩

/-! ## Statistics are exact -/

/-- A summary with the true extremes and the mean rounded once.  A mean of zero
has no sign, and the mean stays between the rounded extremes. -/
structure IsExact (summary : Summary) (totals : List ℤ) : Prop where
  covers : summary.Covers totals
  mean : summary.mean.IsRounding (exactMean totals)
  zero : totals.sum = 0 → summary.mean.toBits = 0
  lower : ∀ low : Binary64, low.IsRounding summary.least →
    low.toRat ≤ summary.mean.toRat
  upper : ∀ high : Binary64, high.IsRounding summary.greatest →
    summary.mean.toRat ≤ high.toRat

theorem Covers.isExact (hcovers : summary.Covers totals)
    (hmean : summary.mean.IsRounding (exactMean totals)) :
    summary.IsExact totals where
  covers := hcovers
  mean := hmean
  zero hzero := by
    have hmeanZero : exactMean totals = 0 := by
      rw [exactMean, hzero, Int.cast_zero, zero_div]
    rw [hmeanZero] at hmean
    exact hmean.toBits_eq_zero
  lower _ hlow := hlow.toRat_mono hmean hcovers.least_le_exactMean
  upper _ hhigh := hmean.toRat_mono hhigh hcovers.exactMean_le_greatest

theorem abs_exactMean_lt (hne : totals ≠ []) {bound : ℚ}
    (hbound : ∀ total ∈ totals, |(total : ℚ)| < bound) :
    |exactMean totals| < bound := by
  obtain ⟨least, hleast⟩ :=
    Option.isSome_iff_exists.mp (List.isSome_min?_of_ne_nil hne)
  obtain ⟨greatest, hgreatest⟩ :=
    Option.isSome_iff_exists.mp (List.isSome_max?_of_ne_nil hne)
  rw [List.min?_eq_some_iff] at hleast
  rw [List.max?_eq_some_iff] at hgreatest
  have hlow := le_exactMean hne hleast.2
  have hhigh := exactMean_le hne hgreatest.2
  have hleastBound := (abs_lt.mp (hbound least hleast.1)).1
  have hgreatestBound := (abs_lt.mp (hbound greatest hgreatest.1)).2
  exact abs_lt.mpr ⟨by linarith, by linarith⟩

theorem exists_isExact (hne : totals ≠ [])
    (hrange : |exactMean totals| < 2 ^ 1024 - 2 ^ 970) :
    ∃ summary, ofTotals totals = .ok (some summary) ∧
      summary.IsExact totals := by
  rcases ofTotals_cases hne with ⟨-, hout⟩ | ⟨summary, hfound, hcovers, hmean⟩
  · exact absurd hrange hout.not_gt
  · exact ⟨summary, hfound, hcovers.isExact hmean⟩

/-- Some totals have an exact summary if their mean is in range, and an error
in its place if it is not.  It is in range if the totals are, and nothing
depends on their order. -/
theorem ofTotals_exact (hne : totals ≠ []) :
    (|exactMean totals| < 2 ^ 1024 - 2 ^ 970 →
      ∃ summary, ofTotals totals = .ok (some summary) ∧
        summary.IsExact totals) ∧
    (2 ^ 1024 - 2 ^ 970 ≤ |exactMean totals| →
      ofTotals totals = .error .meanOutOfRange) ∧
    ((∀ total ∈ totals, |(total : ℚ)| < 2 ^ 1024 - 2 ^ 970) →
      |exactMean totals| < 2 ^ 1024 - 2 ^ 970) ∧
    ∀ others, totals.Perm others → ofTotals others = ofTotals totals := by
  refine ⟨exists_isExact hne, ?_, abs_exactMean_lt hne,
    fun others => ofTotals_perm⟩
  intro hrange
  exact (ofTotals_eq_error_iff hne).mpr ⟨rfl, hrange⟩

theorem ofTotals_exact_at_tie :
    ([2 ^ 53 + 1, 2 ^ 53 + 2, 2 ^ 53] : List ℤ) ≠ [] ∧
      ∃ summary,
        ofTotals [2 ^ 53 + 1, 2 ^ 53 + 2, 2 ^ 53] = .ok (some summary) ∧
        summary.IsExact [2 ^ 53 + 1, 2 ^ 53 + 2, 2 ^ 53] := by
  have hne : ([2 ^ 53 + 1, 2 ^ 53 + 2, 2 ^ 53] : List ℤ) ≠ [] :=
    List.cons_ne_nil _ _
  obtain ⟨hexact, -, hrange, -⟩ := ofTotals_exact hne
  refine ⟨hne, hexact (hrange fun total htotal => ?_)⟩
  apply Binary64.abs_lt_of_abs_le
  simp only [List.mem_cons, List.not_mem_nil, or_false] at htotal
  rcases htotal with rfl | rfl | rfl <;> norm_num

end Summary

end TabletopDice
