import TabletopDice.Expression.Reader
import TabletopDice.Proofs.Numeral
import TabletopDice.Proofs.Traversal

/-!
# What a piece spells

A piece of an expression is a minus or none, and a core.  The core spells a
modifier if it is a run of digits, and dice if it is an optional run, the
letter `d`, and a run.  This grammar is given without the reader, and the
reader of pieces is shown to accept exactly what it allows, and to stop at a
run of too many digits exactly where such a run is the first thing wrong.
-/

namespace TabletopDice

open Text Traversal

/-! ## The grammar of pieces -/

def minus (negative : Bool) : List Char :=
  if negative then ['-'] else []

/-- A count may be left out, and is one then. -/
def SpellsCount (digits : List Char) (n : ℕ) : Prop :=
  (digits = [] ∧ n = 1) ∨ Numeral.Spells digits n

/-- The text of one piece, and the term that it stands for. -/
inductive Term.Spells : List Char → Term → Prop
  | modifier (negative : Bool) {digits : List Char} {n : ℕ} {value : ℤ}
      (hdigits : Numeral.Spells digits n)
      (hvalue : value = if negative then -(n : ℤ) else n)
      (hrange : -2 ^ 31 ≤ value ∧ value ≤ 2 ^ 31 - 1) :
      Term.Spells (minus negative ++ digits)
        (.modifier { value := |value|, sign := if value < 0 then -1 else 1 })
  | dice (negative : Bool) {count sides : List Char} {c s : ℕ}
      (hcount : SpellsCount count c) (hsides : Numeral.Spells sides s)
      (hcountRange : 1 ≤ c ∧ c ≤ 2 ^ 32 - 1)
      (hsidesRange : 1 ≤ s ∧ s ≤ 2 ^ 32 - 1) :
      Term.Spells (minus negative ++ (count ++ 'd' :: sides))
        (.dice { count := c, sides := s, sign := if negative then -1 else 1 })

/-- A piece whose first defect is a run of `n` digits, too many to convert. -/
inductive Term.Overlong : List Char → ℕ → Prop
  | modifier (negative : Bool) {digits : List Char}
      (hdigits : Numeral.Overlong digits) :
      Term.Overlong (minus negative ++ digits) digits.length
  | count (negative : Bool) {count sides : List Char}
      (hcount : Numeral.Overlong count) (hsides : 'd' ∉ sides) :
      Term.Overlong (minus negative ++ (count ++ 'd' :: sides)) count.length
  | sides (negative : Bool) {count sides : List Char} {c : ℕ}
      (hcount : SpellsCount count c) (hrange : c ≤ 2 ^ 32 - 1)
      (hsides : Numeral.Overlong sides) :
      Term.Overlong (minus negative ++ (count ++ 'd' :: sides)) sides.length

/-! ## The sign of a piece -/

@[simp] theorem minus_true : minus true = ['-'] := rfl

@[simp] theorem minus_false : minus false = [] := rfl

/-- A core that can follow the sign: without a minus in front of it, it does
not start with one. -/
def IsCore (negative : Bool) (core : List Char) : Prop :=
  negative = false → core.head? ≠ some '-'

theorem splitMinus_minus_append {negative : Bool} {core : List Char}
    (hcore : IsCore negative core) :
    splitMinus (minus negative ++ core) = (negative, core) := by
  cases negative with
  | true => rfl
  | false =>
      unfold splitMinus
      split
      next rest hminus =>
        have hhead : core.head? = some '-' := by
          simpa using congrArg List.head? hminus
        exact absurd hhead (hcore rfl)
      next => rfl

theorem exists_core (piece : List Char) :
    ∃ negative core, IsCore negative core ∧
      piece = minus negative ++ core := by
  by_cases hminus : piece.head? = some '-'
  · obtain ⟨core, rfl⟩ := List.head?_eq_some_iff.mp hminus
    exact ⟨true, core, by simp [IsCore], rfl⟩
  · exact ⟨false, piece, fun _ => hminus, rfl⟩

theorem isCore_of_isDigit {negative : Bool} {digits : List Char}
    (hall : ∀ c ∈ digits, c.isDigit = true) : IsCore negative digits := by
  intro _ hhead
  have hmem : '-' ∈ digits := List.mem_of_mem_head? hhead
  exact not_mem_of_isDigit hall isDigit_minus hmem

theorem isCore_dice {negative : Bool} {count sides : List Char}
    (hall : ∀ c ∈ count, c.isDigit = true) :
    IsCore negative (count ++ 'd' :: sides) := by
  intro hnegative hhead
  cases count with
  | nil => simp at hhead
  | cons first rest =>
      have hcore : IsCore negative (first :: rest) := isCore_of_isDigit hall
      exact hcore hnegative hhead

theorem SpellsCount.isDigit {digits : List Char} {n : ℕ}
    (hcount : SpellsCount digits n) : ∀ c ∈ digits, c.isDigit = true := by
  rcases hcount with ⟨rfl, -⟩ | hrun
  · simp
  · exact hrun.isDigit

theorem SpellsCount.not_mem {digits : List Char} {n : ℕ} {c : Char}
    (hcount : SpellsCount digits n) (hc : c.isDigit = false) : c ∉ digits :=
  not_mem_of_isDigit hcount.isDigit hc

/-! ## Numbers of one piece -/

theorem readCount_eq_ok_iff {fault : Fault} {digits : List Char} {n : ℕ} :
    readCount fault digits = .ok n ↔
      Numeral.Spells digits n ∧ n ≤ 2 ^ 32 - 1 := by
  rw [← Numeral.read_eq_value_iff]
  unfold readCount
  cases hread : Numeral.read digits with
  | malformed => simp
  | tooLong m => simp
  | value m =>
      by_cases hle : m ≤ maxCount
      · simp only [if_pos hle, Except.ok.injEq, Numeral.value.injEq]
        constructor
        · rintro rfl
          exact ⟨rfl, hle⟩
        · exact And.left
      · simp only [if_neg hle, reduceCtorEq, Numeral.value.injEq, false_iff]
        rintro ⟨rfl, hrange⟩
        exact hle hrange

theorem readCount_eq_tooManyDigits_iff {fault : Fault} {digits : List Char}
    {n : ℕ} :
    readCount fault digits = .error (.tooManyDigits n) ↔
      Numeral.Overlong digits ∧ digits.length = n := by
  rw [← Numeral.read_eq_tooLong_iff]
  unfold readCount
  cases Numeral.read digits with
  | malformed => simp
  | tooLong m => simp
  | value m =>
      by_cases hle : m ≤ maxCount <;> simp [hle]

theorem Modifier.read_eq_ok_iff {negative : Bool} {core : List Char}
    {modifier : Modifier} (hcore : IsCore negative core) :
    Modifier.read (minus negative ++ core) = .ok modifier ↔
      ∃ n, Numeral.Spells core n ∧ n ≤ maxModifier negative ∧
        modifier = ⟨n, if negative && n ≠ 0 then -1 else 1⟩ := by
  simp only [← Numeral.read_eq_value_iff]
  unfold Modifier.read
  rw [splitMinus_minus_append hcore]
  dsimp only
  cases hread : Numeral.read core with
  | malformed => simp
  | tooLong m => simp
  | value m =>
      by_cases hle : m ≤ maxModifier negative
      · simp only [if_pos hle, Except.ok.injEq, Numeral.value.injEq]
        constructor
        · rintro rfl
          exact ⟨m, rfl, hle, rfl⟩
        · rintro ⟨n, rfl, -, rfl⟩
          rfl
      · simp only [if_neg hle, reduceCtorEq, Numeral.value.injEq, false_iff]
        rintro ⟨n, rfl, hrange, -⟩
        exact hle hrange

theorem Modifier.read_eq_tooManyDigits_iff {negative : Bool}
    {core : List Char} {n : ℕ} (hcore : IsCore negative core) :
    Modifier.read (minus negative ++ core) = .error (.tooManyDigits n) ↔
      Numeral.Overlong core ∧ core.length = n := by
  rw [← Numeral.read_eq_tooLong_iff]
  unfold Modifier.read
  rw [splitMinus_minus_append hcore]
  dsimp only
  cases Numeral.read core with
  | malformed => simp
  | tooLong m => simp
  | value m =>
      by_cases hle : m ≤ maxModifier negative <;> simp [hle]

/-- The reader keeps a magnitude and a sign, which are those of the number
that is written, and its two bounds are the range of a 32-bit integer. -/
theorem modifier_eq_of_value {negative : Bool} {n : ℕ} {value : ℤ}
    (hvalue : value = if negative then -(n : ℤ) else n) :
    (n ≤ maxModifier negative ↔ -2 ^ 31 ≤ value ∧ value ≤ 2 ^ 31 - 1) ∧
      (⟨n, if negative && n ≠ 0 then -1 else 1⟩ : Modifier) =
        ⟨|value|, if value < 0 then -1 else 1⟩ := by
  subst value
  cases negative with
  | false =>
      have hsign : ¬ (n : ℤ) < 0 := by omega
      simp [maxModifier, hsign]
  | true =>
      rcases Nat.eq_zero_or_pos n with hzero | hpos
      · simp [maxModifier, hzero]
      · simp [maxModifier, hpos, hpos.ne']

theorem readDiceCount_eq_ok_iff {fault : Fault} {digits : List Char}
    {n : ℕ} :
    readDiceCount fault digits = .ok n ↔
      SpellsCount digits n ∧ n ≤ 2 ^ 32 - 1 := by
  unfold readDiceCount
  by_cases hempty : digits = []
  · have hrun : ¬ Numeral.Spells digits n := fun hrun => hrun.ne_nil hempty
    subst digits
    simp [SpellsCount, hrun]
    omega
  · rw [if_neg (by simpa using hempty), readCount_eq_ok_iff]
    simp [SpellsCount, hempty]

theorem readDiceCount_eq_tooManyDigits_iff {fault : Fault}
    {digits : List Char} {n : ℕ} :
    readDiceCount fault digits = .error (.tooManyDigits n) ↔
      Numeral.Overlong digits ∧ digits.length = n := by
  unfold readDiceCount
  by_cases hempty : digits = []
  · have hrun : ¬ Numeral.Overlong digits := fun hrun => hrun.ne_nil hempty
    subst digits
    simp [hrun]
  · rw [if_neg (by simpa using hempty), readCount_eq_tooManyDigits_iff]

theorem DiceTerm.read_eq_ok_iff {piece count sides : List Char}
    {negative : Bool} {term : DiceTerm} :
    DiceTerm.read piece negative count sides = .ok term ↔
      ∃ c s : ℕ, (SpellsCount count c ∧ c ≤ 2 ^ 32 - 1) ∧
        (Numeral.Spells sides s ∧ s ≤ 2 ^ 32 - 1) ∧ ¬ (c = 0 ∨ s = 0) ∧
        term = ⟨c, s, if negative then -1 else 1⟩ := by
  unfold DiceTerm.read
  simp only [bind_eq_ok_iff, readDiceCount_eq_ok_iff, readCount_eq_ok_iff]
  constructor
  · rintro ⟨c, hcount, s, hsides, hterm⟩
    by_cases hzero : c = 0 ∨ s = 0
    · simp [hzero] at hterm
    · rw [if_neg hzero, Except.ok.injEq] at hterm
      exact ⟨c, s, hcount, hsides, hzero, hterm.symm⟩
  · rintro ⟨c, s, hcount, hsides, hzero, rfl⟩
    exact ⟨c, hcount, s, hsides, if_neg hzero⟩

theorem DiceTerm.read_eq_tooManyDigits_iff {piece count sides : List Char}
    {negative : Bool} {n : ℕ} :
    DiceTerm.read piece negative count sides = .error (.tooManyDigits n) ↔
      (Numeral.Overlong count ∧ count.length = n) ∨
        ∃ c, (SpellsCount count c ∧ c ≤ 2 ^ 32 - 1) ∧
          Numeral.Overlong sides ∧ sides.length = n := by
  unfold DiceTerm.read
  simp only [bind_eq_error_iff, readDiceCount_eq_ok_iff,
    readDiceCount_eq_tooManyDigits_iff, readCount_eq_ok_iff,
    readCount_eq_tooManyDigits_iff]
  constructor
  · rintro (hcount | ⟨c, hcount, hsides | ⟨s, -, hterm⟩⟩)
    · exact .inl hcount
    · exact .inr ⟨c, hcount, hsides⟩
    · by_cases hzero : c = 0 ∨ s = 0 <;> simp [hzero] at hterm
  · rintro (hcount | ⟨c, hcount, hsides⟩)
    · exact .inl hcount
    · exact .inr ⟨c, hcount, .inl hsides⟩

/-! ## Whole pieces -/

theorem Term.read_of_not_mem {negative : Bool} {core : List Char}
    (hcore : IsCore negative core) (hd : 'd' ∉ core) :
    Term.read (minus negative ++ core) =
      if negative || isDigits core then
        Term.modifier <$> Modifier.read (minus negative ++ core)
      else .error (.fault (.term (String.ofList (minus negative ++ core)))) := by
  unfold Term.read
  rw [splitMinus_minus_append hcore]
  dsimp only
  rw [List.splitOn_eq_singleton hd]

theorem Term.read_of_one {negative : Bool} {count sides : List Char}
    (hcore : IsCore negative (count ++ 'd' :: sides))
    (hcount : 'd' ∉ count) (hsides : 'd' ∉ sides) :
    Term.read (minus negative ++ (count ++ 'd' :: sides)) =
      Term.dice <$> DiceTerm.read (minus negative ++ (count ++ 'd' :: sides))
        negative count sides := by
  unfold Term.read
  rw [splitMinus_minus_append hcore]
  dsimp only
  rw [List.splitOn_append_cons_self_of_not_mem hcount,
    List.splitOn_eq_singleton hsides]

theorem Term.read_of_many {negative : Bool} {count sides : List Char}
    (hcore : IsCore negative (count ++ 'd' :: sides))
    (hcount : 'd' ∉ count) (hsides : 'd' ∈ sides) :
    Term.read (minus negative ++ (count ++ 'd' :: sides)) =
      .error (.fault (.term
        (String.ofList (minus negative ++ (count ++ 'd' :: sides))))) := by
  obtain ⟨middle, last, rfl, hmiddle⟩ := List.eq_append_cons_of_mem hsides
  obtain ⟨next, more, hlast⟩ :=
    List.exists_cons_of_ne_nil (List.splitOn_ne_nil 'd' last)
  unfold Term.read
  rw [splitMinus_minus_append hcore]
  dsimp only
  rw [List.splitOn_append_cons_self_of_not_mem hcount,
    List.splitOn_append_cons_self_of_not_mem hmiddle, hlast]

/-- Every piece is read in one of three ways, by the number of letters `d`
in it. -/
theorem Term.exists_shape (piece : List Char) :
    ∃ negative core, IsCore negative core ∧
      piece = minus negative ++ core ∧
      ('d' ∉ core ∨
        ∃ count sides, core = count ++ 'd' :: sides ∧ 'd' ∉ count ∧
          ('d' ∉ sides ∨ 'd' ∈ sides)) := by
  obtain ⟨negative, core, hcore, rfl⟩ := exists_core piece
  refine ⟨negative, core, hcore, rfl, ?_⟩
  by_cases hd : 'd' ∈ core
  · obtain ⟨count, sides, hsplit, hcount⟩ := List.eq_append_cons_of_mem hd
    exact .inr ⟨count, sides, hsplit, hcount, (Classical.em _).symm⟩
  · exact .inl hd

theorem Term.read_eq_ok_of_spells {piece : List Char} {term : Term}
    (hpiece : Term.Spells piece term) : Term.read piece = .ok term := by
  cases hpiece with
  | @modifier negative digits n value hdigits hvalue hrange =>
      obtain ⟨hmax, hmodifier⟩ := modifier_eq_of_value hvalue
      have hcore : IsCore negative digits := isCore_of_isDigit hdigits.isDigit
      have hd : 'd' ∉ digits := hdigits.not_mem isDigit_d
      have hread := (Modifier.read_eq_ok_iff hcore).mpr
        ⟨n, hdigits, hmax.mpr hrange, rfl⟩
      rw [Term.read_of_not_mem hcore hd, hdigits.isDigits, Bool.or_true,
        if_pos rfl, hread, hmodifier]
      rfl
  | @dice negative count sides c s hcount hsides hcountRange hsidesRange =>
      have hcore : IsCore negative (count ++ 'd' :: sides) :=
        isCore_dice hcount.isDigit
      have hd : 'd' ∉ sides := hsides.not_mem isDigit_d
      have hread : DiceTerm.read (minus negative ++ (count ++ 'd' :: sides))
          negative count sides = .ok ⟨c, s, if negative then -1 else 1⟩ :=
        DiceTerm.read_eq_ok_iff.mpr
          ⟨c, s, ⟨hcount, hcountRange.2⟩, ⟨hsides, hsidesRange.2⟩,
            by omega, rfl⟩
      rw [Term.read_of_one hcore (hcount.not_mem isDigit_d) hd, hread]
      rfl

theorem Term.spells_of_read_eq_ok {piece : List Char} {term : Term}
    (hread : Term.read piece = .ok term) : Term.Spells piece term := by
  obtain ⟨negative, core, hcore, rfl, hd | ⟨count, sides, rfl, hcount, hd⟩⟩ :=
    Term.exists_shape piece
  · rw [Term.read_of_not_mem hcore hd] at hread
    split at hread
    next hmodifier =>
      obtain ⟨modifier, hmodifier, rfl⟩ := map_eq_ok_iff.mp hread
      obtain ⟨n, hdigits, hmax, rfl⟩ :=
        (Modifier.read_eq_ok_iff hcore).mp hmodifier
      obtain ⟨hrange, hvalue⟩ := modifier_eq_of_value rfl
      rw [hvalue]
      exact .modifier negative hdigits rfl (hrange.mp hmax)
    next => cases hread
  · rcases hd with hd | hd
    · rw [Term.read_of_one hcore hcount hd] at hread
      obtain ⟨term, hterm, rfl⟩ := map_eq_ok_iff.mp hread
      obtain ⟨c, s, hcount, hsides, hzero, rfl⟩ :=
        DiceTerm.read_eq_ok_iff.mp hterm
      exact .dice negative hcount.1 hsides.1 ⟨by omega, hcount.2⟩
        ⟨by omega, hsides.2⟩
    · rw [Term.read_of_many hcore hcount hd] at hread
      cases hread

/-- The reader of pieces accepts exactly what the grammar allows. -/
theorem Term.read_eq_ok_iff {piece : List Char} {term : Term} :
    Term.read piece = .ok term ↔ Term.Spells piece term :=
  ⟨Term.spells_of_read_eq_ok, Term.read_eq_ok_of_spells⟩

theorem Term.overlong_of_read_eq {piece : List Char} {n : ℕ}
    (hread : Term.read piece = .error (.tooManyDigits n)) :
    Term.Overlong piece n := by
  obtain ⟨negative, core, hcore, rfl, hd | ⟨count, sides, rfl, hcount, hd⟩⟩ :=
    Term.exists_shape piece
  · rw [Term.read_of_not_mem hcore hd] at hread
    split at hread
    next hmodifier =>
      obtain ⟨hdigits, rfl⟩ := (Modifier.read_eq_tooManyDigits_iff hcore).mp
        (map_eq_error_iff.mp hread)
      exact .modifier negative hdigits
    next => cases hread
  · rcases hd with hd | hd
    · rw [Term.read_of_one hcore hcount hd] at hread
      have hterm := DiceTerm.read_eq_tooManyDigits_iff.mp
        (map_eq_error_iff.mp hread)
      rcases hterm with ⟨hlong, rfl⟩ | ⟨c, hshort, hlong, rfl⟩
      · exact .count negative hlong hd
      · exact .sides negative hshort.1 hshort.2 hlong
    · rw [Term.read_of_many hcore hcount hd] at hread
      cases hread

theorem Term.read_eq_of_overlong {piece : List Char} {n : ℕ}
    (hpiece : Term.Overlong piece n) :
    Term.read piece = .error (.tooManyDigits n) := by
  cases hpiece with
  | @modifier negative digits hdigits =>
      have hcore : IsCore negative digits := isCore_of_isDigit hdigits.isDigit
      have hd : 'd' ∉ digits := hdigits.not_mem isDigit_d
      have hread := (Modifier.read_eq_tooManyDigits_iff hcore).mpr
        ⟨hdigits, rfl⟩
      rw [Term.read_of_not_mem hcore hd, hdigits.isDigits, Bool.or_true,
        if_pos rfl]
      exact map_eq_error_iff.mpr hread
  | @count negative count sides hlong hd =>
      have hcore : IsCore negative (count ++ 'd' :: sides) :=
        isCore_dice hlong.isDigit
      have hcount : 'd' ∉ count := hlong.not_mem isDigit_d
      rw [Term.read_of_one hcore hcount hd]
      exact map_eq_error_iff.mpr
        (DiceTerm.read_eq_tooManyDigits_iff.mpr (.inl ⟨hlong, rfl⟩))
  | @sides negative count sides c hcount hrange hlong =>
      have hcore : IsCore negative (count ++ 'd' :: sides) :=
        isCore_dice hcount.isDigit
      have hd : 'd' ∉ sides := hlong.not_mem isDigit_d
      rw [Term.read_of_one hcore (hcount.not_mem isDigit_d) hd]
      exact map_eq_error_iff.mpr
        (DiceTerm.read_eq_tooManyDigits_iff.mpr
          (.inr ⟨c, ⟨hcount, hrange⟩, hlong, rfl⟩))

theorem Term.read_eq_tooManyDigits_iff {piece : List Char} {n : ℕ} :
    Term.read piece = .error (.tooManyDigits n) ↔ Term.Overlong piece n :=
  ⟨Term.overlong_of_read_eq, Term.read_eq_of_overlong⟩

end TabletopDice
