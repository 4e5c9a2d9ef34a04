import TabletopDice.Text.Numeral
import Mathlib.Tactic

/-!
# Runs of digits and their numbers

The reader of numerals sorts every text into three: a run of digits that is
short enough to convert, one that is too long, and everything else.  The
first two are described here without the reader, and the decimal text of a
small number is shown to be a run for that number.
-/

namespace TabletopDice.Text

/-- A run of digits that is short enough to convert, and its number. -/
structure Numeral.Spells (digits : List Char) (n : Nat) : Prop where
  ne_nil : digits ≠ []
  isDigit : ∀ c ∈ digits, c.isDigit = true
  length_le : digits.length ≤ digitLimit
  value_eq : digitsValue digits = n

/-- A run of digits that is too long to convert. -/
structure Numeral.Overlong (digits : List Char) : Prop where
  isDigit : ∀ c ∈ digits, c.isDigit = true
  lt_length : digitLimit < digits.length

/-! ## What the reader says -/

theorem isDigits_iff {cs : List Char} :
    isDigits cs = true ↔ cs ≠ [] ∧ ∀ c ∈ cs, c.isDigit = true := by
  simp [isDigits]

theorem Numeral.Spells.isDigits
    {digits : List Char} {n : Nat} (hrun : Numeral.Spells digits n) :
    isDigits digits = true :=
  isDigits_iff.mpr ⟨hrun.ne_nil, hrun.isDigit⟩

theorem Numeral.Overlong.ne_nil
    {digits : List Char} (hrun : Numeral.Overlong digits) : digits ≠ [] := by
  have hlength := hrun.lt_length
  intro hnil
  simp [hnil] at hlength

theorem Numeral.Overlong.isDigits
    {digits : List Char} (hrun : Numeral.Overlong digits) :
    isDigits digits = true :=
  isDigits_iff.mpr ⟨hrun.ne_nil, hrun.isDigit⟩

theorem Numeral.read_eq_value_iff {cs : List Char} {n : Nat} :
    Numeral.read cs = .value n ↔ Numeral.Spells cs n := by
  unfold Numeral.read
  constructor
  · intro hread
    split at hread
    next hdigits =>
      split at hread
      next hshort =>
        obtain ⟨hne, hall⟩ := isDigits_iff.mp hdigits
        exact ⟨hne, hall, hshort, by simpa using hread⟩
      next => simp at hread
    next => simp at hread
  · intro hrun
    rw [if_pos hrun.isDigits, if_pos hrun.length_le, hrun.value_eq]

theorem Numeral.read_eq_tooLong_iff {cs : List Char} {n : Nat} :
    Numeral.read cs = .tooLong n ↔ Numeral.Overlong cs ∧ cs.length = n := by
  unfold Numeral.read
  constructor
  · intro hread
    split at hread
    next hdigits =>
      split at hread
      next => simp at hread
      next hlong =>
        have hall := (isDigits_iff.mp hdigits).2
        exact ⟨⟨hall, by omega⟩, by simpa using hread⟩
    next => simp at hread
  · rintro ⟨hrun, rfl⟩
    have hlong := hrun.lt_length
    rw [if_pos hrun.isDigits, if_neg (by omega)]

theorem Numeral.read_eq_malformed_iff {cs : List Char} :
    Numeral.read cs = .malformed ↔ isDigits cs = false := by
  unfold Numeral.read
  cases hdigits : isDigits cs with
  | false => simp
  | true =>
      simp only [if_true]
      split <;> simp

/-! ## Characters of a run -/

theorem ne_of_isDigit {c d : Char} (hc : c.isDigit = true)
    (hd : d.isDigit = false) : c ≠ d := by
  intro heq
  rw [heq, hd] at hc
  contradiction

theorem isDigit_plus : '+'.isDigit = false := rfl

theorem isDigit_minus : '-'.isDigit = false := rfl

theorem isDigit_d : 'd'.isDigit = false := rfl

theorem not_mem_of_isDigit {digits : List Char} {d : Char}
    (hall : ∀ c ∈ digits, c.isDigit = true) (hd : d.isDigit = false) :
    d ∉ digits :=
  fun hmem => ne_of_isDigit (hall d hmem) hd rfl

theorem Numeral.Spells.not_mem {digits : List Char} {n : ℕ} {c : Char}
    (hrun : Numeral.Spells digits n) (hc : c.isDigit = false) : c ∉ digits :=
  not_mem_of_isDigit hrun.isDigit hc

theorem Numeral.Overlong.not_mem {digits : List Char} {c : Char}
    (hrun : Numeral.Overlong digits) (hc : c.isDigit = false) : c ∉ digits :=
  not_mem_of_isDigit hrun.isDigit hc

theorem isBlank_of_isDigit {c : Char} (hc : c.isDigit = true) :
    isBlank c = false := by
  have hrange : 48 ≤ c.toNat ∧ c.toNat ≤ 57 := by
    simpa [Char.isDigit, UInt32.le_iff_toNat_le] using hc
  simp only [isBlank, Bool.or_eq_false_iff, Bool.and_eq_false_iff,
    decide_eq_false_iff_not, beq_eq_false_iff_ne]
  omega

theorem squeeze_of_isDigit {digits : List Char}
    (hall : ∀ c ∈ digits, c.isDigit = true) : squeeze digits = digits := by
  unfold squeeze
  apply List.filter_eq_self.mpr
  intro c hc
  simp [isBlank_of_isDigit (hall c hc)]

/-! ## Decimal text -/

@[simp] theorem toList_decimal_natCast (n : Nat) :
    (decimal (n : Int)).toList = Nat.toDigits 10 n := by
  simp [decimal, Int.repr]

theorem isDigit_of_mem_toDigits {n : Nat} {c : Char}
    (hc : c ∈ Nat.toDigits 10 n) : c.isDigit = true :=
  Nat.isDigit_of_mem_toDigits (by decide) (by decide) hc

/-- The decimal text of a number of at most 32 bits is a run for it. -/
theorem Numeral.spells_toDigits {n : Nat} (hn : n < 2 ^ 32) :
    Numeral.Spells (Nat.toDigits 10 n) n where
  ne_nil := Nat.toDigits_ne_nil
  isDigit _ hc := isDigit_of_mem_toDigits hc
  length_le := by
    have hten : (Nat.toDigits 10 n).length ≤ 10 := by
      rw [Nat.length_toDigits_le_iff (by decide) (by decide)]
      omega
    have hlimit : 10 ≤ digitLimit := by decide
    omega
  value_eq := by simp [digitsValue]

end TabletopDice.Text
