import TabletopDice.Proofs.Term
import Mathlib.Data.List.TakeWhile

/-!
# Decimal text

A reader of decimal numbers: a minus or none, digits, and then a point with
more digits or neither.  It is used to say what a line shows, and it reads the
text of an integer, with or without a point, back as the number that was
written.
-/

namespace TabletopDice.Text

/-- The number that digits stand for, with a point among them or without. -/
def readMagnitude? (cs : List Char) : Option ℚ :=
  let whole := cs.takeWhile Char.isDigit
  match cs.dropWhile Char.isDigit with
  | [] => if isDigits whole then some (digitsValue whole) else none
  | '.' :: fraction =>
      if isDigits whole && isDigits fraction then
        some (digitsValue whole + digitsValue fraction / 10 ^ fraction.length)
      else none
  | _ => none

/-- The number that a decimal text stands for. -/
def readDecimal? (cs : List Char) : Option ℚ :=
  if cs.head? = some '-' then (readMagnitude? cs.tail).map Neg.neg
  else readMagnitude? cs

/-! ## Reading -/

theorem readMagnitude?_digits {digits : List Char}
    (hdigits : isDigits digits = true) :
    readMagnitude? digits = some (digitsValue digits : ℚ) := by
  have hall := (isDigits_iff.mp hdigits).2
  unfold readMagnitude?
  rw [List.takeWhile_eq_self_iff.mpr hall, List.dropWhile_eq_nil_iff.mpr hall]
  exact if_pos hdigits

theorem readMagnitude?_point {whole fraction : List Char}
    (hwhole : isDigits whole = true) (hfraction : isDigits fraction = true) :
    readMagnitude? (whole ++ '.' :: fraction) =
      some (digitsValue whole +
        digitsValue fraction / 10 ^ fraction.length : ℚ) := by
  have hall := (isDigits_iff.mp hwhole).2
  have htake : (whole ++ '.' :: fraction).takeWhile Char.isDigit = whole := by
    rw [List.takeWhile_append_of_pos hall]
    exact List.append_nil whole
  have hdrop : (whole ++ '.' :: fraction).dropWhile Char.isDigit =
      '.' :: fraction := by
    rw [List.dropWhile_append_of_pos hall]
    rfl
  unfold readMagnitude?
  rw [htake, hdrop]
  simp [hwhole, hfraction]

theorem readDecimal?_minus_append {negative : Bool} {core : List Char}
    (hcore : IsCore negative core) {q : ℚ} (hq : readMagnitude? core = some q) :
    readDecimal? (minus negative ++ core) =
      some (if negative then -q else q) := by
  unfold readDecimal?
  cases negative with
  | true => simp [minus, hq]
  | false => exact (if_neg (hcore rfl)).trans hq

/-! ## Writing -/

theorem toList_decimal (n : ℤ) :
    (decimal n).toList = minus (decide (n < 0)) ++ Nat.toDigits 10 n.natAbs := by
  cases n with
  | ofNat m => exact toList_decimal_natCast m
  | negSucc m => simp [decimal, Int.repr, minus, Int.negSucc_lt_zero]

theorem isDigits_toDigits (n : ℕ) : isDigits (Nat.toDigits 10 n) = true :=
  isDigits_iff.mpr ⟨Nat.toDigits_ne_nil, fun _ hc => isDigit_of_mem_toDigits hc⟩

theorem digitsValue_toDigits (n : ℕ) : digitsValue (Nat.toDigits 10 n) = n :=
  Nat.ofDigitChars_ten_toDigits

theorem readDecimal?_decimal (n : ℤ) :
    readDecimal? (decimal n).toList = some (n : ℚ) := by
  have hdigits := isDigits_toDigits n.natAbs
  have hcore : IsCore (decide (n < 0)) (Nat.toDigits 10 n.natAbs) :=
    isCore_of_isDigit (isDigits_iff.mp hdigits).2
  rw [toList_decimal, readDecimal?_minus_append hcore
    (readMagnitude?_digits hdigits), digitsValue_toDigits, Nat.cast_natAbs,
    Int.cast_abs]
  by_cases hn : n < 0
  · have hnq : (n : ℚ) < 0 := by exact_mod_cast hn
    rw [decide_eq_true hn, if_pos rfl, abs_of_neg hnq, neg_neg]
  · have hnq : (0 : ℚ) ≤ n := by exact_mod_cast not_lt.mp hn
    rw [decide_eq_false hn, if_neg Bool.false_ne_true, abs_of_nonneg hnq]

section Padded

variable {width n : ℕ}

theorem toList_paddedDecimal (width n : ℕ) :
    (paddedDecimal width n).toList =
      List.replicate (width - (Nat.toDigits 10 n).length) '0' ++
        Nat.toDigits 10 n := by
  unfold paddedDecimal
  exact String.toList_ofList

theorem isDigits_paddedDecimal (width n : ℕ) :
    isDigits (paddedDecimal width n).toList = true := by
  have hdigits := isDigits_iff.mp (isDigits_toDigits n)
  rw [toList_paddedDecimal]
  refine isDigits_iff.mpr ⟨by simp [hdigits.1], fun c hc => ?_⟩
  rcases List.mem_append.mp hc with hzero | hdigit
  · rw [List.eq_of_mem_replicate hzero]
    rfl
  · exact hdigits.2 c hdigit

theorem digitsValue_paddedDecimal (width n : ℕ) :
    digitsValue (paddedDecimal width n).toList = n := by
  rw [toList_paddedDecimal, digitsValue, Nat.ofDigitChars_append,
    Nat.ofDigitChars_replicate_zero, Nat.mul_zero]
  exact digitsValue_toDigits n

theorem length_paddedDecimal (hwidth : 0 < width) (hn : n < 10 ^ width) :
    (paddedDecimal width n).toList.length = width := by
  have hshort : (Nat.toDigits 10 n).length ≤ width :=
    (Nat.length_toDigits_le_iff (by decide) hwidth).mpr hn
  rw [toList_paddedDecimal, List.length_append, List.length_replicate]
  omega

end Padded

/-! ## Labelled lines -/

/-- The first line that begins with a label. -/
def labelled? (label : String) (lines : List String) : Option String :=
  lines.find? fun line => label.toList.isPrefixOf line.toList

/-- The number that stands behind a label, spaces aside. -/
def shown? (label : String) (lines : List String) : Option ℚ := do
  let line ← labelled? label lines
  readDecimal? ((line.toList.drop label.length).dropWhile (· = ' '))

theorem head?_ne_space {cs : List Char} {q : ℚ}
    (hread : readDecimal? cs = some q) : cs.head? ≠ some ' ' := by
  intro hhead
  obtain ⟨rest, rfl⟩ := List.head?_eq_some_iff.mp hhead
  cases hread

theorem shown?_eq_some {label text : String} {lines : List String} {n : ℕ}
    {q : ℚ} (hline : labelled? label lines =
      some (label ++ String.ofList (List.replicate n ' ') ++ text))
    (hread : readDecimal? text.toList = some q) :
    shown? label lines = some q := by
  have hspaces : (List.replicate n ' ' ++ text.toList).dropWhile (· = ' ') =
      text.toList := by
    rw [List.dropWhile_append_of_pos (by simp), List.dropWhile_eq_self_iff]
    intro hpos hspace
    apply head?_ne_space hread
    rw [List.head?_eq_getElem?, List.getElem?_eq_getElem hpos]
    simpa using hspace
  unfold shown?
  rw [hline, Option.bind_eq_bind, Option.bind_some]
  simp only [String.toList_append, String.toList_ofList, List.append_assoc]
  rw [← String.length_toList, List.drop_left, hspaces, hread]

end TabletopDice.Text
